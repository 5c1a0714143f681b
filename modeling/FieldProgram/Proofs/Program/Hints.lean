import FieldProgram.Proofs.Artifact.Load
import FieldProgram.Proofs.Matched

/-!
# The hints of a loaded program

Every record of a hint in a document is one hint of the program, at the program counter of its key
and at its place in the list. Members with an empty list add nothing, but their keys still stand for
program counters of their own.

* `HintsHeldBy.apart`: no two keys stand for one program counter;
* `HintsHeldBy.lookup_held`, `HintsHeldBy.lookup_absent`: what is found at a program counter;
* `HintsHeldBy.pcs`, `HintsHeldBy.all`: the program counters and the hints in order;
* `load_keepsHints`: all of this about loaded programs.
-/

namespace FieldProgram.Artifact

/-- The records in the member of a program counter. -/
def hintRecords (m : Text × Document) : List Document := m.2.items?.getD []

/-- The hints are those of the records, one for one. -/
def HintsOf (ds : List Document) (hs : List Hint) : Prop :=
  List.Forall₂ (fun d h => Hint.DescribedBy h d) ds hs

namespace HintsDescribedBy

variable {entry : Int × List Hint} {m : Text × Document}

theorem records (h : HintsDescribedBy entry m) : HintsOf (hintRecords m) entry.2 := by
  obtain ⟨-, -, ds, listed, described⟩ := h
  rw [hintRecords, listed]
  exact described

theorem isEmpty_eq (h : HintsDescribedBy entry m) :
    (hintRecords m).isEmpty = entry.2.isEmpty := by
  rw [Bool.eq_iff_iff, List.isEmpty_iff_length_eq_zero, List.isEmpty_iff_length_eq_zero,
    h.records.length_eq]

end HintsDescribedBy

/-- An entry that was left out for want of hints is as good as found. -/
theorem lookup_nonempty {entries : List (Int × List Hint)} (nodup : (entries.map Prod.fst).Nodup)
    {entry : Int × List Hint} (h : entry ∈ entries) :
    ((entries.filter fun e => !e.2.isEmpty).lookup entry.1).getD [] = entry.2 := by
  obtain ⟨n, hs⟩ := entry
  cases hs with
  | cons first rest =>
    have kept : (n, first :: rest) ∈ entries.filter fun e => !e.2.isEmpty :=
      List.mem_filter.mpr ⟨h, rfl⟩
    rw [Entries.lookup_of_mem ((List.filter_sublist.map Prod.fst).nodup nodup) kept]
    rfl
  | nil =>
    -- An entry that was kept would be a second one for the program counter.
    cases found : (entries.filter fun e => !e.2.isEmpty).lookup n with
    | none => rfl
    | some hs =>
      obtain ⟨present, some_hint⟩ := List.mem_filter.mp (Entries.mem_of_lookup found)
      have one : entries.lookup n = some hs := Entries.lookup_of_mem nodup present
      have other : entries.lookup n = some [] := Entries.lookup_of_mem nodup h
      obtain rfl := Option.some.inj (one.symm.trans other)
      cases some_hint

namespace HintsHeldBy

variable {ms : List (Text × Document)} {hints : List (Int × List Hint)}

/-- Keys without hints take part: it is the entries of all members that differ. -/
theorem apart (h : HintsHeldBy ms hints) :
    ms.Pairwise fun a b => ∀ n, a.1.Denotes n → ¬ b.1.Denotes n := by
  obtain ⟨entries, described, nodup, -⟩ := h
  refine pairwise_of_forall₂ described (List.pairwise_map.mp nodup) ?_
  intro a b entry entry' ha hb differ n hn hn'
  exact differ ((ha.1.unique hn).trans (hn'.unique hb.1))

example : (Artifact.hints (.map [("0", .list []), ("00", .list [])])).isOk = false := rfl

/-- The hints at the program counter of a key are those of its records. -/
theorem lookup_held (h : HintsHeldBy ms hints) {m : Text × Document} (hm : m ∈ ms) :
    ∃ n ds, m.1.Denotes n ∧ m.2 = .list ds ∧ HintsOf ds ((hints.lookup n).getD []) := by
  obtain ⟨entries, described, nodup, rfl⟩ := h
  obtain ⟨entry, hentry, denotes, -, ds, listed, records⟩ :=
    exists_right_of_forall₂ described m hm
  refine ⟨entry.1, ds, denotes, listed, ?_⟩
  rw [lookup_nonempty nodup hentry]
  exact records

theorem lookup_absent (h : HintsHeldBy ms hints) {n : Int} (absent : ∀ m ∈ ms, ¬ m.1.Denotes n) :
    (hints.lookup n).getD [] = [] := by
  cases found : hints.lookup n with
  | none => rfl
  | some hs =>
    obtain ⟨-, m, hm, denotes, -⟩ := h.entry _ (Entries.mem_of_lookup found)
    exact absurd denotes (absent m hm)

theorem pcs (h : HintsHeldBy ms hints) :
    List.Forall₂ (fun m n => m.1.Denotes n) (ms.filter fun m => !(hintRecords m).isEmpty)
      (hints.map Prod.fst) := by
  obtain ⟨entries, described, -, rfl⟩ := h
  rw [List.forall₂_map_right_iff]
  refine (forall₂_filter ?_ described).imp fun m entry h => h.1
  intro m entry h
  rw [h.isEmpty_eq]

theorem all (h : HintsHeldBy ms hints) :
    HintsOf (ms.flatMap hintRecords) (hints.flatMap Prod.snd) := by
  obtain ⟨entries, described, -, rfl⟩ := h
  rw [flatMap_filter_of_nil fun entry _ out => by simpa using out]
  exact List.rel_flatMap described fun m entry h => h.records

end HintsHeldBy

/-- The program has the hints that the members hold: no key twice for one program counter, the
records of a key in their order at its program counter, and no other hints. -/
structure KeepsHints (ms : List (Text × Document)) (p : Program) : Prop where
  apart : ms.Pairwise fun a b => ∀ n, a.1.Denotes n → ¬ b.1.Denotes n
  held : ∀ m ∈ ms, ∃ n ds, m.1.Denotes n ∧ m.2 = .list ds ∧ HintsOf ds (p.hintsAt n)
  absent : ∀ n, (∀ m ∈ ms, ¬ m.1.Denotes n) → p.hintsAt n = []
  pcs : List.Forall₂ (fun m n => m.1.Denotes n) (ms.filter fun m => !(hintRecords m).isEmpty)
    (p.hints.map Prod.fst)
  all : HintsOf (ms.flatMap hintRecords) (p.hints.flatMap Prod.snd)
  total : (p.hints.flatMap Prod.snd).length = (ms.flatMap hintRecords).length

theorem load_keepsHints {room : Room} {d : Document} {entrypoint : Text} {expected : Option Int}
    {p : Program} (h : (load room d entrypoint expected).outcome = .ok p) :
    KeepsHints (hintSection d) p := by
  have held := (load_eq_ok_iff.mp h).hints
  exact {
    apart := held.apart
    held := fun _ hm => held.lookup_held hm
    absent := fun _ absent => held.lookup_absent absent
    pcs := held.pcs
    all := held.all
    total := held.all.length_eq.symm }

theorem load_keepsHints_sample :
    (load .standard sample "main" none).outcome = .ok sampleProgram ∧
      HintsOf [sampleHint] (sampleProgram.hintsAt 7) ∧ sampleProgram.hintsAt 8 = [] := by
  have loaded : (load .standard sample "main" none).outcome = .ok sampleProgram :=
    load_eq_ok_iff.mpr sample_loads
  have keeps := load_keepsHints loaded
  have five : ("5" : Text).Denotes 5 := ⟨[5], ⟨by decide, by decide, rfl⟩, rfl⟩
  have seven : ("007" : Text).Denotes 7 := ⟨[0, 0, 7], ⟨by decide, by decide, rfl⟩, rfl⟩
  have held := keeps.held ("007", .list [sampleHint]) (.tail _ (.head _))
  obtain ⟨n, ds, denotes, listed, records⟩ := held
  obtain rfl := denotes.unique seven
  cases listed
  refine ⟨loaded, records, keeps.absent 8 (List.forall_mem_cons.mpr ⟨fun h => ?_, ?_⟩)⟩
  · exact absurd (h.unique five) (by decide)
  · refine List.forall_mem_singleton.mpr fun h => ?_
    exact absurd (h.unique seven) (by decide)

end FieldProgram.Artifact

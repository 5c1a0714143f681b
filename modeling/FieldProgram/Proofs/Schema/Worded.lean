import FieldProgram.Proofs.Document.Short
import FieldProgram.Proofs.Outcome
import FieldProgram.Proofs.Schema.Basic

/-!
# Violations that can be worded

A message about a violation displays the value at its place. Where the document has no overlong
integer, a violation has a message exactly if there is room for the levels of that value, and a
report has to have room for all of them.

* `Schema.violations_worded`: when each violation of a schema by a short document has a message;
* `Schema.levels_of_violations`: when nothing nested is displayed;
* `Violation.failsUnless_report`: when the report has a message.
-/

namespace FieldProgram

open Numeral

namespace Breach

/-- The levels of the value that the message displays. -/
def levels : Breach Document → Nat
  | .wrongType d _ => d.levels
  | .empty d => d.levels
  | .notChosen d _ => d.levels
  | .missing _ => 0
  | .unexpected _ => 0

/-- There is a message about the breach exactly where there is room for what it displays. -/
def Worded (b : Breach Document) : Prop :=
  ∀ n, Except.FailsUnless (b.levels ≤ n) .nesting (b.message n)

theorem worded_wrongType {d : Document} (short : d.Short) (types : List SchemaType) :
    Worded (.wrongType d types) :=
  fun n => (Document.Short.failsUnless_shown d short n).map
    (· ++ " is not of type " ++ ", ".intercalate (types.map fun t => Text.quoted t.word))

theorem worded_empty {d : Document} (short : d.Short) : Worded (.empty d) :=
  fun n => (Document.Short.failsUnless_shown d short n).map (· ++ " should be non-empty")

theorem worded_notChosen {d : Document} (short : d.Short) (choices : List String) :
    Worded (.notChosen d choices) :=
  fun n => (Document.Short.failsUnless_shown d short n).map
    (· ++ " is not one of " ++ Display.list (choices.map fun (c : String) => Text.quoted c))

theorem worded_missing (name : String) : Worded (.missing name) :=
  fun n => .ok _ (Nat.zero_le n)

/-- The keys of documents are texts, which have displays. -/
theorem worded_unexpected {keys : List Label} (texts : ∀ k ∈ keys, ∃ t, k = .text t) :
    Worded (.unexpected keys) := by
  obtain ⟨ts, rfl⟩ : ∃ ts : List Text, keys = ts.map .text := by
    induction keys with
    | nil => exact ⟨[], rfl⟩
    | cons k keys ih =>
      obtain ⟨t, rfl⟩ := texts k (List.mem_cons_self ..)
      obtain ⟨ts, rfl⟩ := ih fun k hk => texts k (List.mem_cons_of_mem _ hk)
      exact ⟨t :: ts, rfl⟩
  have plain : (ts.map Label.text).mapM Label.plain = .ok ts :=
    Except.mapM_map_eq_ok fun _ _ => rfl
  have shown : (ts.map Label.text).mapM Label.shown = .ok (ts.map Text.quoted) := by
    rw [Except.mapM_eq_ok_iff, List.forall₂_map_left_iff, List.forall₂_map_right_iff,
      List.forall₂_same]
    exact fun _ _ => rfl
  intro n
  rw [message, sortedKeys, plain, shown]
  exact .ok _ (Nat.zero_le n)

end Breach

namespace Schema

/-! ## One requirement at a time -/

theorem typeBreaches_worded {d : Document} (short : d.Short) (types : List SchemaType) :
    ∀ b ∈ typeBreaches types d, b.Worded := by
  unfold typeBreaches
  split
  · simp
  · simpa using Breach.worded_wrongType short types

theorem requiredBreaches_worded (required : List String) (d : Document) :
    ∀ b ∈ requiredBreaches required d, b.Worded := by
  unfold requiredBreaches
  split
  · intro b hb
    obtain ⟨name, -, rfl⟩ := List.mem_map.mp hb
    exact Breach.worded_missing name
  · simp

theorem emptyBreaches_worded {d : Document} (short : d.Short) (nonEmpty : Bool) :
    ∀ b ∈ emptyBreaches nonEmpty d, b.Worded := by
  unfold emptyBreaches
  split
  · split
    · simpa using Breach.worded_empty short
    · simp
  · simp

theorem choiceBreaches_worded {d : Document} (short : d.Short) (choices : Option (List String)) :
    ∀ b ∈ choiceBreaches choices d, b.Worded := by
  unfold choiceBreaches
  split
  · simp
  · split
    · split
      · simp
      · simpa using Breach.worded_notChosen short _
    · simpa using Breach.worded_notChosen short _

theorem closedBreaches_worded (closed : Bool) (names : List String) (d : Document) :
    ∀ b ∈ closedBreaches closed names d, b.Worded := by
  cases d with
  | map ms =>
    simp only [closedBreaches, layer, Document.outer]
    split
    · intro b hb
      obtain rfl := List.mem_singleton.mp hb
      refine Breach.worded_unexpected fun k hk => ?_
      obtain ⟨m, hm, rfl⟩ := List.mem_map.mp (List.mem_filter.mp hk).1
      obtain ⟨⟨t, v⟩, -, rfl⟩ := List.mem_map.mp hm
      exact ⟨t, rfl⟩
    · simp
  | _ => simp [closedBreaches, layer, Document.outer]

/-! ## Whole schemas -/

theorem short_memberOf? {d m : Document} (short : d.Short) {name : String}
    (found : memberOf? name d = some m) : m.Short := by
  cases d with
  | map ms =>
    rw [show memberOf? name (Document.map ms) = ms.lookup (name : Text) from
      Document.member?_labelled name ms] at found
    exact short.of_lookup found
  | _ => cases found

theorem short_itemsOf {d : Document} (short : d.Short) : ∀ x ∈ itemsOf d, x.Short := by
  cases d with
  | list xs => exact Document.short_list.mp short
  | _ => simp [itemsOf, layer, Document.outer]

mutual

theorem violations_worded (path : List String) (d : Document) (short : d.Short) :
    (s : Schema) → ∀ x ∈ violations path d s, x.breach.Worded
  | ⟨types, required, members, items, nonEmpty, choices, closed⟩ => by
    intro x hx
    simp only [violations, List.mem_append, List.mem_map] at hx
    rcases hx with ((⟨b, hb | hb, rfl⟩ | hx) | hx) | ⟨b, (hb | hb) | hb, rfl⟩
    · exact typeBreaches_worded short types b hb
    · exact requiredBreaches_worded required d b hb
    · exact memberViolations_worded path d short members x hx
    · exact itemViolations_worded path d short items x hx
    · exact emptyBreaches_worded short nonEmpty b hb
    · exact choiceBreaches_worded short choices b hb
    · exact closedBreaches_worded closed _ d b hb

theorem memberViolations_worded (path : List String) (d : Document) (short : d.Short) :
    (members : List (String × Schema)) →
      ∀ x ∈ memberViolations path d members, x.breach.Worded
  | [] => by simp [memberViolations]
  | (name, s) :: rest => by
    intro x hx
    rw [memberViolations, List.mem_append] at hx
    rcases hx with hx | hx
    · cases found : memberOf? name d with
      | none => simp [found] at hx
      | some m =>
        rw [found] at hx
        exact violations_worded (path ++ [name]) m (short_memberOf? short found) s x hx
    · exact memberViolations_worded path d short rest x hx

theorem itemViolations_worded (path : List String) (d : Document) (short : d.Short) :
    (items : Option Schema) → ∀ x ∈ itemViolations path d items, x.breach.Worded
  | none => by simp [itemViolations]
  | some s => by
    intro x hx
    rw [itemViolations] at hx
    obtain ⟨vs, hvs, hx⟩ := List.mem_flatten.mp hx
    obtain ⟨⟨item, n⟩, hitem, rfl⟩ := List.mem_map.mp hvs
    exact violations_worded (path ++ [toString n]) item
      (short_itemsOf short item (List.fst_mem_of_mem_zipIdx hitem)) s x hx

end

/-- Where a mapping has none of the members of its schema, or what is to be one is not nested, there
is nothing nested to be displayed. -/
theorem levels_of_violations {path : List String} {d : Document} {required : List String}
    {members : List (String × Schema)} (none : ∀ m ∈ members, memberOf? m.1 d = none)
    (flat : d.levels = 0 ∨ ∃ ms, d = .map ms) :
    ∀ x ∈ violations path d { types := [.object], required, members }, x.breach.levels = 0 := by
  have members_ : memberViolations path d members = [] :=
    memberViolations_eq_nil_iff.mpr fun m mem w found => by cases (none m mem).symm.trans found
  intro x hx
  simp only [violations, members_, itemViolations_none, emptyBreaches_false, choiceBreaches_none,
    closedBreaches_false, List.append_nil, List.map_nil, List.mem_map, List.mem_append] at hx
  obtain ⟨b, typed | missing, rfl⟩ := hx
  · rcases flat with flat | ⟨ms, rfl⟩
    · unfold typeBreaches at typed
      split at typed
      · cases typed
      · obtain rfl := List.mem_singleton.mp typed
        exact flat
    · cases typed
  · unfold requiredBreaches at missing
    split at missing
    · obtain ⟨name, -, rfl⟩ := List.mem_map.mp missing
      rfl
    · cases missing

end Schema

namespace Violation

/-- There is room for the value at the place of the violation. -/
def Fits (room : Room) (v : Violation Document) : Prop := v.breach.levels ≤ room.shown v.path

instance (room : Room) (v : Violation Document) : Decidable (Fits room v) :=
  inferInstanceAs (Decidable (_ ≤ _))

theorem failsUnless_line {v : Violation Document} (worded : v.breach.Worded) (room : Room) :
    Except.FailsUnless (v.Fits room) .nesting (line room v) :=
  (worded (room.shown v.path)).map ((" - " ++ v.place?.getD "<root>" ++ ": ") ++ ·)

theorem failsUnless_report (room : Room) (title : String) {vs : List (Violation Document)}
    (worded : ∀ x ∈ vs, x.breach.Worded) :
    Except.FailsUnless (∀ x ∈ vs, x.Fits room) .nesting (report room title vs) :=
  (Except.FailsUnless.mapM fun x hx => failsUnless_line (worded x hx) room).map
    fun lines => "\n".intercalate (title :: lines)

end Violation

end FieldProgram

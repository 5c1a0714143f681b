import FieldProgram.Document.Layer
import FieldProgram.Proofs.Numeral.Length
import FieldProgram.Proofs.Outcome

/-!
# Documents without overlong integers

`Document.Short` says that every integer in a document has a decimal text. Such documents can be
displayed where there is room for their levels, and so can all their parts.

* `Short.of_lookup`, `Short.of_member?`, `Short.of_members?`: parts of a short document are short;
* `Short.failsUnless_shown`: a short document has a display exactly where there is room for its
  levels.
-/

namespace FieldProgram.Document

open Numeral

/-- The integer has no more digits than decimal text may have. -/
def ShortInteger (n : Int) : Prop := (decimalDigits n.natAbs).length ≤ maxDigits

instance (n : Int) : Decidable (ShortInteger n) := inferInstanceAs (Decidable (_ ≤ _))

theorem ShortInteger.text {n : Int} (h : ShortInteger n) : ∃ s, decimalText n = .ok s :=
  ⟨_, decimalText_eq_ok_iff.mpr ⟨h, rfl⟩⟩

/-- Decimal text fails on overlong integers, and always in the same way. -/
theorem failsUnless_decimalText (n : Int) :
    Except.FailsUnless (ShortInteger n) .writing (decimalText n) := by
  unfold decimalText
  split
  · exact .ok _ ‹_›
  · exact .error ‹_›

mutual

/-- No integer anywhere in the document is overlong. -/
def Short : Document → Prop
  | .int n => ShortInteger n
  | .list items => ShortItems items
  | .map members => ShortMembers members
  | _ => True

def ShortItems : List Document → Prop
  | [] => True
  | x :: xs => Short x ∧ ShortItems xs

def ShortMembers : List (Text × Document) → Prop
  | [] => True
  | (_, v) :: ms => Short v ∧ ShortMembers ms

end

@[simp] theorem short_null : Short .null := by simp [Short]

@[simp] theorem short_bool (b : Bool) : Short (.bool b) := by simp [Short]

@[simp] theorem short_float (x : Binary64) : Short (.float x) := by simp [Short]

@[simp] theorem short_str (t : Text) : Short (.str t) := by simp [Short]

@[simp] theorem short_int {n : Int} : Short (.int n) ↔ ShortInteger n := by simp [Short]

theorem shortItems_iff {xs : List Document} : ShortItems xs ↔ ∀ x ∈ xs, Short x := by
  induction xs with
  | nil => simp [ShortItems]
  | cons x xs ih => rw [ShortItems, ih, List.forall_mem_cons]

theorem shortMembers_iff {ms : List (Text × Document)} :
    ShortMembers ms ↔ ∀ m ∈ ms, Short m.2 := by
  induction ms with
  | nil => simp [ShortMembers]
  | cons m ms ih =>
    obtain ⟨k, v⟩ := m
    rw [ShortMembers, ih, List.forall_mem_cons]

@[simp] theorem short_list {xs : List Document} : Short (.list xs) ↔ ∀ x ∈ xs, Short x := by
  rw [Short, shortItems_iff]

@[simp] theorem short_map {ms : List (Text × Document)} :
    Short (.map ms) ↔ ∀ m ∈ ms, Short m.2 := by
  rw [Short, shortMembers_iff]

/-! ## Parts -/

theorem Short.of_lookup {ms : List (Text × Document)} (short : Short (.map ms)) {name : Text}
    {v : Document} (found : ms.lookup name = some v) : v.Short := by
  rw [short_map] at short
  obtain ⟨before, after, rfl, -⟩ := List.lookup_eq_some_iff.mp found
  exact short (name, v) (by simp)

theorem Short.of_member? {d : Document} (short : d.Short) {name : Text} {v : Document}
    (found : d.member? name = some v) : v.Short := by
  cases d with
  | map ms => exact short.of_lookup found
  | _ => cases found

theorem Short.of_members? {d : Document} (short : d.Short) :
    ∀ m ∈ d.members?.getD [], m.2.Short := by
  cases d with
  | map ms => exact short_map.mp short
  | _ => simp [members?]

/-! ## Display -/

theorem levelsOfItems_le {xs : List Document} {n : Nat} :
    levelsOfItems xs ≤ n ↔ ∀ x ∈ xs, x.levels + 1 ≤ n := by
  induction xs with
  | nil => simp [levelsOfItems]
  | cons x xs ih => rw [levelsOfItems, Nat.max_le, ih, List.forall_mem_cons]

theorem levelsOfMembers_le {ms : List (Text × Document)} {n : Nat} :
    levelsOfMembers ms ≤ n ↔ ∀ m ∈ ms, m.2.levels + 1 ≤ n := by
  induction ms with
  | nil => simp [levelsOfMembers]
  | cons m ms ih =>
    obtain ⟨k, v⟩ := m
    rw [levelsOfMembers, Nat.max_le, ih, List.forall_mem_cons]

theorem failsUnless_enter (levels parts : Nat) :
    Except.FailsUnless (parts ≠ 0 → 0 < levels) .nesting (Display.enter levels parts) := by
  unfold Display.enter
  split
  · exact .error (by omega)
  · exact .ok () (by omega)

/-- There is room for parts, and they have room, exactly if each of them has a level less. -/
theorem enters_iff {α : Type} (f : α → Nat) {xs : List α} {levels : Nat} :
    ((xs.length ≠ 0 → 0 < levels) ∧ ∀ x ∈ xs, f x ≤ levels - 1) ↔
      ∀ x ∈ xs, f x + 1 ≤ levels := by
  constructor
  · rintro ⟨room, inside⟩ x hx
    have := room (Nat.ne_of_gt (List.length_pos_of_mem hx))
    have := inside x hx
    omega
  · intro inside
    refine ⟨fun parts => ?_, fun x hx => ?_⟩
    · obtain ⟨x, hx⟩ := List.exists_mem_of_length_pos (Nat.pos_of_ne_zero parts)
      exact Nat.lt_of_lt_of_le (Nat.succ_pos _) (inside x hx)
    · have := inside x hx
      omega

mutual

/-- The display of a short document fails only where it would go too deep. -/
theorem Short.failsUnless_shown : (d : Document) → d.Short → ∀ n,
    Except.FailsUnless (d.levels ≤ n) .nesting (d.shown n)
  | .null, _, _ => .ok _ (Nat.zero_le _)
  | .bool _, _, _ => .ok _ (Nat.zero_le _)
  | .float _, _, _ => .ok _ (Nat.zero_le _)
  | .str _, _, _ => .ok _ (Nat.zero_le _)
  | .int i, short, n => by
    obtain ⟨s, hs⟩ := (short_int.mp short).text
    rw [shown, hs]
    exact .ok s (Nat.zero_le _)
  | .list items, short, n => by
    rw [Short] at short
    rw [shown, levels, levelsOfItems_le, ← enters_iff levels]
    exact (failsUnless_enter n items.length).bind fun _ =>
      (ShortItems.failsUnless_shown items short (n - 1)).map Display.list
  | .map members, short, n => by
    rw [Short] at short
    rw [shown, levels, levelsOfMembers_le, ← enters_iff fun m : Text × Document => m.2.levels]
    exact (failsUnless_enter n members.length).bind fun _ =>
      (ShortMembers.failsUnless_shown members short (n - 1)).map Display.braced

theorem ShortItems.failsUnless_shown : (xs : List Document) → ShortItems xs → ∀ levels,
    Except.FailsUnless (∀ x ∈ xs, x.levels ≤ levels) .nesting (shownItems levels xs)
  | [], _, _ => .ok [] (by simp)
  | x :: xs, short, levels => by
    rw [shownItems, List.forall_mem_cons]
    exact (Short.failsUnless_shown x short.1 levels).bind fun first =>
      (ShortItems.failsUnless_shown xs short.2 levels).map (first :: ·)

theorem ShortMembers.failsUnless_shown : (ms : List (Text × Document)) → ShortMembers ms →
    ∀ levels, Except.FailsUnless (∀ m ∈ ms, m.2.levels ≤ levels) .nesting (shownMembers levels ms)
  | [], _, _ => .ok [] (by simp)
  | (k, v) :: ms, short, levels => by
    rw [shownMembers, List.forall_mem_cons]
    exact (Short.failsUnless_shown v short.1 levels).bind fun value =>
      (ShortMembers.failsUnless_shown ms short.2 levels).map (Display.member k.quoted value :: ·)

end

end FieldProgram.Document

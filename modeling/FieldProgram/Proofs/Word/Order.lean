import FieldProgram.Word.Order
import Mathlib.Data.Prod.Lex

/-!
# Linear orders of words

Words are sorted by their prime, and addresses are a sort of their own. The questions about two
words of one sort are those about their places in a linear order, although an element tells on its
own only whether it is below another one. Words of two sorts have no order, and are different.

* `Word.sort?`, `Word.place`: with which words a word is compared, and where it stands among them;
* `Word.compare_of_sort_eq`, `Word.compare_of_sort_ne`: the answers to all questions;
* `Word.compare_linear`: comparing is a linear order on each sort.
-/

namespace FieldProgram

/-! ## Questions -/

namespace Comparison

variable {α : Type} {c : Comparison}

/-- What is asked about two members of an order. -/
def Relates [LT α] [LE α] : Comparison → α → α → Prop
  | .lt, x, y => x < y
  | .le, x, y => x ≤ y
  | .gt, x, y => y < x
  | .ge, x, y => y ≤ x

instance [LinearOrder α] (x y : α) : Decidable (c.Relates x y) :=
  match c with
  | .lt => inferInstanceAs (Decidable (x < y))
  | .le => inferInstanceAs (Decidable (x ≤ y))
  | .gt => inferInstanceAs (Decidable (y < x))
  | .ge => inferInstanceAs (Decidable (y ≤ x))

theorem holds_compare (m n : Nat) : c.holds (compare m n) = true ↔ c.Relates m n := by
  cases c with
  | lt => simp [holds, Relates, Nat.compare_eq_lt]
  | le => simp [holds, Relates, Nat.compare_ne_gt]
  | gt => simp [holds, Relates, Nat.compare_eq_gt]
  | ge => simp [holds, Relates, Nat.compare_ne_lt]

/-- Pairs stand in the lexicographic order. -/
theorem onPairs_eq (a b : Nat × Nat) : c.onPairs a b = decide (c.Relates (toLex a) (toLex b)) := by
  rw [Bool.eq_iff_iff, decide_eq_true_iff, onPairs]
  by_cases first : a.1 = b.1
  · rw [if_pos first, holds_compare]
    cases c <;> simp [Relates, Prod.Lex.toLex_lt_toLex, Prod.Lex.toLex_le_toLex, first]
  · rw [if_neg first, holds_compare]
    cases c <;>
      simp [Relates, Prod.Lex.toLex_lt_toLex, Prod.Lex.toLex_le_toLex, first, Ne.symm first]
    · omega
    · omega

end Comparison

theorem Felt.eq_iff {f g : Felt} : f = g ↔ f.value = g.value ∧ f.prime = g.prime := by
  cases f
  cases g
  simp

theorem Relocatable.eq_iff {r s : Relocatable} :
    r = s ↔ r.segment = s.segment ∧ r.offset = s.offset := by
  cases r
  cases s
  simp

namespace Word

variable {a b d : Word} {c : Comparison}

/-! ## Equality -/

theorem equal_eq_true_iff : a.equal b = true ↔ a = b := by
  cases a with
  | felt f =>
    cases b with
    | felt g => simp [equal, equals?, Felt.eq_iff]
    | relocatable s => simp [equal, equals?]
  | relocatable r =>
    cases b with
    | felt g => simp [equal, equals?]
    | relocatable s => simp [equal, equals?, Relocatable.eq_iff]

theorem differ_eq (a b : Word) : a.differ b = !a.equal b := by
  rw [differ, equal]
  cases a.equals? b with
  | some same => rfl
  | none => cases b.equals? a <;> rfl

/-! ## Places -/

/-- The prime of an element. Addresses have none. -/
def sort? : Word → Option Nat
  | .felt f => some f.prime
  | .relocatable _ => none

/-- Where a word stands among those of its sort: an element by its value, an address by its segment
and then by its offset. -/
def place : Word → Nat ×ₗ Nat
  | .felt f => toLex (f.value, 0)
  | .relocatable r => toLex (r.segment, r.offset)

theorem eq_of_place_eq (sort : a.sort? = b.sort?) (place : a.place = b.place) : a = b := by
  cases a with
  | felt f =>
    cases b with
    | felt g => simp_all [sort?, Word.place, Felt.eq_iff]
    | relocatable s => cases sort
  | relocatable r =>
    cases b with
    | felt g => cases sort
    | relocatable s => simp_all [Word.place, Relocatable.eq_iff]

theorem equal_of_sort_eq (sort : a.sort? = b.sort?) :
    a.equal b = decide (a.place = b.place) := by
  rw [Bool.eq_iff_iff, equal_eq_true_iff, decide_eq_true_iff]
  exact ⟨congrArg place, eq_of_place_eq sort⟩

/-! ## Answers -/

/-- An element derives its answers from whether it is below the other one and whether it equals
it. -/
theorem answer?_felt {f g : Felt} (prime : f.prime = g.prime) :
    f.answer? c (.felt g) = some (decide (c.Relates (felt f).place (felt g).place)) := by
  have below : f.below? (.felt g) = some (decide ((felt f).place < (felt g).place)) := by
    simp [Felt.below?, prime, place, Prod.Lex.toLex_lt_toLex]
  have equal : (felt f).equal (.felt g) = decide ((felt f).place = (felt g).place) :=
    equal_of_sort_eq (congrArg some prime)
  rw [Felt.answer?, below, differ_eq, equal, Option.map_some, Option.some_inj, Bool.eq_iff_iff,
    decide_eq_true_iff]
  cases c with
  | lt => simp [Comparison.Relates]
  | le => simp [Comparison.Relates, le_iff_lt_or_eq]
  | gt =>
    have above : (felt g).place < (felt f).place ↔
        ¬ (felt f).place < (felt g).place ∧ (felt f).place ≠ (felt g).place := by
      rw [lt_iff_le_and_ne, not_lt, ne_comm]
    simp [Comparison.Relates, above]
  | ge => simp [Comparison.Relates]

theorem answer?_of_sort_eq (sort : a.sort? = b.sort?) :
    answer? c a b = some (decide (c.Relates a.place b.place)) := by
  cases a with
  | felt f =>
    cases b with
    | felt g => exact answer?_felt (Option.some.inj sort)
    | relocatable s => cases sort
  | relocatable r =>
    cases b with
    | felt g => cases sort
    | relocatable s => exact congrArg some (Comparison.onPairs_eq _ _)

theorem answer?_of_sort_ne (sorts : a.sort? ≠ b.sort?) : answer? c a b = none := by
  cases a with
  | felt f =>
    cases b with
    | felt g =>
      have primes : ¬ g.prime = f.prime := fun same => sorts (congrArg some same.symm)
      simp [answer?, Felt.answer?, Felt.below?, primes]
    | relocatable s => rfl
  | relocatable r =>
    cases b with
    | felt g => rfl
    | relocatable s => exact absurd rfl sorts

theorem compare_of_sort_eq (sort : a.sort? = b.sort?) :
    compare c a b = .ok (decide (c.Relates a.place b.place)) := by
  rw [compare, answer?_of_sort_eq sort]
  rfl

theorem compare_of_sort_ne (sorts : a.sort? ≠ b.sort?) : compare c a b = .error .unsupported := by
  rw [compare, answer?_of_sort_ne sorts, answer?_of_sort_ne sorts.symm]
  rfl

/-! ## Comparable words -/

/-- All questions about the order of the words have an answer. -/
def Comparable (a b : Word) : Prop := ∀ c, ∃ answer, compare c a b = .ok answer

/-- The words are elements of one field, or addresses both. -/
inductive OfOneSort : Word → Word → Prop
  | felt {f g : Felt} (prime : f.prime = g.prime) : OfOneSort (.felt f) (.felt g)
  | relocatable (r s : Relocatable) : OfOneSort (.relocatable r) (.relocatable s)

/-- The first word is below the second one. -/
def Below (a b : Word) : Prop := compare .lt a b = .ok true

theorem ofOneSort_iff : OfOneSort a b ↔ a.sort? = b.sort? := by
  constructor
  · rintro (prime | ⟨r, s⟩)
    · exact congrArg some prime
    · rfl
  · intro sort
    cases a with
    | felt f =>
      cases b with
      | felt g => exact .felt (Option.some.inj sort)
      | relocatable s => cases sort
    | relocatable r =>
      cases b with
      | felt g => cases sort
      | relocatable s => exact .relocatable r s

theorem comparable_iff : Comparable a b ↔ a.sort? = b.sort? := by
  constructor
  · intro answers
    by_contra sorts
    obtain ⟨answer, h⟩ := answers .lt
    cases (compare_of_sort_ne sorts).symm.trans h
  · exact fun sort c => ⟨_, compare_of_sort_eq sort⟩

theorem below_iff : Below a b ↔ a.sort? = b.sort? ∧ a.place < b.place := by
  rw [Below]
  by_cases sort : a.sort? = b.sort?
  · rw [compare_of_sort_eq sort, Except.ok.injEq, decide_eq_true_iff]
    exact (and_iff_right sort).symm
  · simp [compare_of_sort_ne sort, sort]

theorem Below.trans (h : Below a b) (h' : Below b d) : Below a d := by
  obtain ⟨sort, below⟩ := below_iff.mp h
  obtain ⟨sort', below'⟩ := below_iff.mp h'
  exact below_iff.mpr ⟨sort.trans sort', below.trans below'⟩

theorem comparable_equivalence : Equivalence Comparable where
  refl _ := comparable_iff.mpr rfl
  symm h := comparable_iff.mpr (comparable_iff.mp h).symm
  trans h h' := comparable_iff.mpr ((comparable_iff.mp h).trans (comparable_iff.mp h'))

/-- One of two words is below the other one, or they are equal, and not two of these. -/
theorem below_equal_above (sort : a.sort? = b.sort?) :
    Below a b ∧ a.equal b = false ∧ ¬ Below b a ∨ ¬ Below a b ∧ a.equal b = true ∧ ¬ Below b a ∨
      ¬ Below a b ∧ a.equal b = false ∧ Below b a := by
  have differ (places : a.place ≠ b.place) : a.equal b = false := by
    rw [equal_of_sort_eq sort, decide_eq_false places]
  rw [below_iff, below_iff]
  rcases lt_trichotomy a.place b.place with below | same | above
  · exact .inl ⟨⟨sort, below⟩, differ below.ne, fun h => below.asymm h.2⟩
  · refine .inr (.inl ⟨fun h => h.2.ne same, ?_, fun h => h.2.ne same.symm⟩)
    rw [equal_of_sort_eq sort, decide_eq_true same]
  · exact .inr (.inr ⟨fun h => above.asymm h.2, differ above.ne', sort.symm, above⟩)

theorem compare_le (a b : Word) :
    compare .le a b = (compare .lt a b).map fun below => below || a.equal b := by
  by_cases sort : a.sort? = b.sort?
  · rw [compare_of_sort_eq sort, compare_of_sort_eq sort, equal_of_sort_eq sort, Except.map,
      Except.ok.injEq, Bool.eq_iff_iff, Bool.or_eq_true, decide_eq_true_iff, decide_eq_true_iff,
      decide_eq_true_iff]
    exact le_iff_lt_or_eq
  · rw [compare_of_sort_ne sort, compare_of_sort_ne sort]
    rfl

/-- A question may be asked from the side of the other word. -/
theorem compare_mirrored (c : Comparison) (a b : Word) :
    compare c.mirrored a b = compare c b a := by
  by_cases sort : a.sort? = b.sort?
  · rw [compare_of_sort_eq sort, compare_of_sort_eq sort.symm]
    cases c <;> rfl
  · rw [compare_of_sort_ne sort, compare_of_sort_ne (Ne.symm sort)]

theorem below_relocatable (r s : Relocatable) : Below (.relocatable r) (.relocatable s) ↔
    r.segment < s.segment ∨ r.segment = s.segment ∧ r.offset < s.offset := by
  simp [below_iff, sort?, place, Prod.Lex.toLex_lt_toLex]

theorem below_felt (f g : Felt) :
    Below (.felt f) (.felt g) ↔ f.prime = g.prime ∧ f.value < g.value := by
  simp [below_iff, sort?, place, Prod.Lex.toLex_lt_toLex]

/-! ## Linear orders -/

/-- Comparing words is a linear order on each sort. Across sorts nothing has an answer but whether
the words are equal or different. -/
theorem compare_linear :
    (∀ a b, Comparable a b ∨ ∀ c, compare c a b = .error .unsupported) ∧
    Equivalence Comparable ∧
    (∀ a b, Comparable a b ↔ OfOneSort a b) ∧
    (∀ a b, Comparable a b →
      Below a b ∧ a.equal b = false ∧ ¬ Below b a ∨ ¬ Below a b ∧ a.equal b = true ∧ ¬ Below b a ∨
        ¬ Below a b ∧ a.equal b = false ∧ Below b a) ∧
    (∀ a b, compare .le a b = (compare .lt a b).map fun below => below || a.equal b) ∧
    (∀ a b, compare .gt a b = compare .lt b a ∧ compare .ge a b = compare .le b a) ∧
    (∀ a b d, Below a b → Below b d → Below a d) ∧
    (∀ f g, Below (.felt f) (.felt g) ↔ f.prime = g.prime ∧ f.value < g.value) ∧
    (∀ r s, Below (.relocatable r) (.relocatable s) ↔
      r.segment < s.segment ∨ r.segment = s.segment ∧ r.offset < s.offset) ∧
    (∀ a b : Word, (a.equal b = true ↔ a = b) ∧ a.differ b = !a.equal b) ∧
    ∀ a b, ¬ Comparable a b → a.equal b = false := by
  refine ⟨fun a b => ?_, comparable_equivalence, fun a b => ?_, fun a b comparable => ?_,
    compare_le, fun a b => ⟨compare_mirrored .lt a b, compare_mirrored .le a b⟩,
    fun a b d => Below.trans, below_felt, below_relocatable,
    fun a b => ⟨equal_eq_true_iff, differ_eq a b⟩, fun a b apart => ?_⟩
  · by_cases sort : a.sort? = b.sort?
    · exact .inl (comparable_iff.mpr sort)
    · exact .inr fun c => compare_of_sort_ne sort
  · rw [comparable_iff, ofOneSort_iff]
  · exact below_equal_above (comparable_iff.mp comparable)
  · rw [Bool.eq_false_iff]
    intro same
    obtain rfl := equal_eq_true_iff.mp same
    exact apart (comparable_iff.mpr rfl)

/-- An element of the field of eleven elements. -/
def ofEleven (value : Nat) (small : value < 11) : Word :=
  .felt ⟨value, 11, by decide, small⟩

/-- Three elements of a field, two addresses, and an element beside an address of like parts. -/
theorem compare_linear_ofEleven :
    (Below (ofEleven 1 (by decide)) (ofEleven 3 (by decide)) ∧
      Below (ofEleven 3 (by decide)) (ofEleven 6 (by decide)) ∧
      Below (ofEleven 1 (by decide)) (ofEleven 6 (by decide))) ∧
    (Comparable (.relocatable ⟨0, 5⟩) (.relocatable ⟨1, 0⟩) ∧
      ¬ Below (.relocatable ⟨1, 0⟩) (.relocatable ⟨0, 5⟩)) ∧
    ¬ Comparable (ofEleven 0 (by decide)) (.relocatable ⟨0, 0⟩) ∧
      (ofEleven 0 (by decide)).equal (.relocatable ⟨0, 0⟩) = false := by
  obtain ⟨-, -, sorts, three, -, -, trans, -, addresses, -, apart⟩ := compare_linear
  have first : Below (ofEleven 1 (by decide)) (ofEleven 3 (by decide)) := rfl
  have second : Below (ofEleven 3 (by decide)) (ofEleven 6 (by decide)) := rfl
  have comparable : Comparable (.relocatable ⟨0, 5⟩) (.relocatable ⟨1, 0⟩) :=
    (sorts _ _).mpr (.relocatable _ _)
  have below : Below (.relocatable ⟨0, 5⟩) (.relocatable ⟨1, 0⟩) :=
    (addresses _ _).mpr (.inl (by decide))
  have not_comparable : ¬ Comparable (ofEleven 0 (by decide)) (.relocatable ⟨0, 0⟩) := by
    intro h
    cases (sorts _ _).mp h
  refine ⟨⟨first, second, trans _ _ _ first second⟩, ⟨comparable, ?_⟩, not_comparable,
    apart _ _ not_comparable⟩
  rcases three _ _ comparable with ⟨-, -, h⟩ | ⟨h, -⟩ | ⟨h, -⟩
  · exact h
  · exact absurd below h
  · exact absurd below h

end Word

end FieldProgram

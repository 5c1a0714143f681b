import FieldProgram.Numeral.Positional
import Mathlib.Data.String.Basic

/-!
# Numbers in the order of texts

Sorting numbers by their decimal texts puts 10 in front of 2. Among numbers with as many digits
the two orders are the same.

* `toString_lt`: as many digits give the same order.
-/

namespace FieldProgram.Numeral

/-- What is appended does not count if the lists before it differ and are equally long. -/
theorem append_lt_append {as bs : List Char} (h : as < bs) (width : as.length = bs.length)
    (cs ds : List Char) : as ++ cs < bs ++ ds := by
  induction as generalizing bs with
  | nil =>
    cases bs with
    | nil => exact absurd h (List.lt_irrefl [])
    | cons b bs => cases width
  | cons a as ih =>
    cases bs with
    | nil => cases width
    | cons b bs =>
      rw [List.cons_append, List.cons_append, List.cons_lt_cons_iff]
      rcases List.cons_lt_cons_iff.mp h with below | ⟨same, below⟩
      · exact .inl below
      · exact .inr ⟨same, ih below (Nat.succ.inj width)⟩

theorem digitChar_lt {m n : Nat} (below : m < n) (small : n < 10) :
    Nat.digitChar m < Nat.digitChar n := by
  have all : ∀ n < 10, ∀ m < n, Nat.digitChar m < Nat.digitChar n := by decide
  exact all n small m below

theorem toDigits_lt {m n : Nat} (below : m < n)
    (width : (Nat.toDigits 10 m).length = (Nat.toDigits 10 n).length) :
    Nat.toDigits 10 m < Nat.toDigits 10 n := by
  -- The last digit decides only where the digits before it are the same.
  induction n using Nat.strongRecOn generalizing m with
  | ind n ih =>
    by_cases small : n < 10
    · rw [Nat.toDigits_of_lt_base small, Nat.toDigits_of_lt_base (Nat.lt_trans below small)]
      exact List.cons_lt_cons_iff.mpr (.inl (digitChar_lt below small))
    · have wide : 10 ≤ m := by
        by_contra narrow
        have short := (Nat.length_toDigits_le_iff (b := 10) (n := m) (k := 1) (by decide)
          (by decide)).mpr (by omega)
        rw [width, Nat.length_toDigits_le_iff (by decide) (by decide)] at short
        omega
      rw [Nat.toDigits_of_base_le (by decide) wide,
        Nat.toDigits_of_base_le (by decide) (Nat.le_of_not_lt small)] at width ⊢
      have width : (Nat.toDigits 10 (m / 10)).length = (Nat.toDigits 10 (n / 10)).length := by
        simpa using width
      rcases Nat.lt_or_ge (m / 10) (n / 10) with first | first
      · exact append_lt_append (ih _ (by omega) first width) width _ _
      · have same : m / 10 = n / 10 := by omega
        rw [same]
        exact List.append_left_lt (List.cons_lt_cons_iff.mpr
          (.inl (digitChar_lt (by omega) (Nat.mod_lt _ (by decide)))))

/-- Numbers with as many digits are in the same order as texts. -/
theorem toString_lt {m n : Nat} (below : m < n)
    (width : (toString m).length = (toString n).length) : toString m < toString n := by
  have chars (k : Nat) : (toString k).toList = Nat.toDigits 10 k := by
    rw [Nat.toString_eq_repr, Nat.repr_eq_ofList_toDigits, String.toList_ofList]
  rw [← String.length_toList, ← String.length_toList, chars, chars] at width
  rw [String.lt_iff_toList_lt, chars, chars]
  exact toDigits_lt below width

theorem toString_ne {m n : Nat} (h : m ≠ n) : toString m ≠ toString n := by
  intro same
  have width := congrArg String.length same
  rcases Nat.lt_or_gt_of_ne h with below | below
  · exact (toString_lt below width).ne same
  · exact (toString_lt below width.symm).ne same.symm

end FieldProgram.Numeral

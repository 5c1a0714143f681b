import FieldProgram.Numeral.Decimal
import FieldProgram.Proofs.Numeral.Positional

/-!
# How many digits a number has

* `length_digits_le_iff`: a number has at most `k` digits exactly when it is below the `k`-th power
  of the base;
* `decimalText_eq_ok_iff`: the integers that have a decimal text;
* `decimalDigits_ofDigits_le`: a number read from digits is written in at most as many.
-/

namespace FieldProgram.Numeral

theorem ofDigits_lt {base : Nat} {ds : List Nat} (h : ∀ d ∈ ds, d < base) :
    ofDigits base ds < base ^ ds.length := by
  induction ds with
  | nil => simp [ofDigits]
  | cons d ds ih =>
    have rest := ih fun e he => h e (List.mem_cons_of_mem _ he)
    have first : (d + 1) * base ^ ds.length ≤ base * base ^ ds.length :=
      Nat.mul_le_mul_right _ (h d (List.mem_cons_self ..))
    rw [ofDigits_cons, List.length_cons, Nat.pow_succ']
    rw [Nat.add_mul, Nat.one_mul] at first
    omega

theorem length_digitsOnto_le {base : Nat} (places n k : Nat) (acc : List Nat) (pos : 0 < k)
    (h : n < base ^ k) :
    (digitsOnto base places n acc).length ≤ k + acc.length := by
  induction places generalizing n k acc with
  | zero => simp [digitsOnto]
  | succ places ih =>
    rw [digitsOnto]
    split
    · simp only [List.length_cons]
      omega
    · rename_i large
      cases k with
      | zero => omega
      | succ k =>
        have pos' : 0 < k := by
          rcases Nat.eq_zero_or_pos k with rfl | pos'
          · simp at h
            omega
          · exact pos'
        have := ih (n / base) k (n % base :: acc) pos'
          (Nat.div_lt_of_lt_mul (by rwa [Nat.pow_succ'] at h))
        simp only [List.length_cons] at this
        omega

theorem length_digits_le_iff {base n k : Nat} (two_le : 2 ≤ base) (pos : 0 < k) :
    (digits base n).length ≤ k ↔ n < base ^ k := by
  constructor
  · intro h
    have := ofDigits_lt (digits_lt (by omega) n : ∀ d ∈ digits base n, d < base)
    rw [ofDigits_digits two_le] at this
    exact Nat.lt_of_lt_of_le this (Nat.pow_le_pow_right (by omega) h)
  · intro h
    exact length_digitsOnto_le _ n k [] pos h

/-! ## Decimal texts -/

theorem length_decimalDigits (n : Nat) :
    (decimalDigits n).length = (digits 10 n).length := by
  simp [decimalDigits]

theorem decimalText_eq_ok_iff {n : Int} {s : String} :
    decimalText n = .ok s ↔ (decimalDigits n.natAbs).length ≤ maxDigits ∧ shortDecimal n = s := by
  unfold decimalText
  split
  · rename_i short
    simp [short]
  · rename_i long
    simp only [reduceCtorEq, false_iff, not_and]
    exact fun short => absurd short long

theorem decimalDigits_ofDigits_le {ds : List Nat} (h : ∀ d ∈ ds, d < 10)
    (short : ds.length ≤ maxDigits) :
    (decimalDigits (ofDigits 10 ds)).length ≤ maxDigits := by
  rw [length_decimalDigits, length_digits_le_iff (by decide) (by decide)]
  exact Nat.lt_of_lt_of_le (ofDigits_lt h) (Nat.pow_le_pow_right (by decide) short)

theorem ofDecimalDigits_eq_ok_iff {ds : List Nat} {n : Nat} :
    ofDecimalDigits ds = .ok n ↔ ds.length ≤ maxDigits ∧ ofDigits 10 ds = n := by
  unfold ofDecimalDigits
  split
  · rename_i short
    simp [short]
  · rename_i long
    simp [long]

/-- What is read within the limit is written within it. -/
theorem decimalDigits_le_of_ofDecimalDigits {ds : List Nat} (h : ∀ d ∈ ds, d < 10) {n : Nat}
    (read : ofDecimalDigits ds = .ok n) : (decimalDigits n).length ≤ maxDigits := by
  obtain ⟨short, rfl⟩ := ofDecimalDigits_eq_ok_iff.mp read
  exact decimalDigits_ofDigits_le h short

theorem ofDecimalDigits_digits {n : Nat} (short : (decimalDigits n).length ≤ maxDigits) :
    ofDecimalDigits (digits 10 n) = .ok n := by
  rw [length_decimalDigits] at short
  exact ofDecimalDigits_eq_ok_iff.mpr ⟨short, ofDigits_digits (by decide) n⟩

end FieldProgram.Numeral

import Mathlib.Algebra.Group.Nat.Defs
import FieldProgram.Numeral.Positional

/-!
# Reading undoes writing

* `ofDigits_cons`: a digit counts as often as the power of the base at its place;
* `ofDigits_digits`: the digits of a number stand for it, in every base from two on;
* `exists_digits_head`: they start with a zero only for zero.
-/

namespace FieldProgram.Numeral

theorem foldl_ofDigits (base : Nat) (ds : List Nat) (v : Nat) :
    ds.foldl (fun v d => v * base + d) v = v * base ^ ds.length + ofDigits base ds := by
  induction ds generalizing v with
  | nil => simp [ofDigits]
  | cons d ds ih =>
    simp only [List.foldl_cons, List.length_cons, ofDigits, Nat.zero_mul, Nat.zero_add]
    rw [ih, ih d, Nat.pow_succ']
    simp [Nat.add_mul, Nat.mul_assoc, Nat.add_assoc]

theorem ofDigits_cons (base d : Nat) (ds : List Nat) :
    ofDigits base (d :: ds) = d * base ^ ds.length + ofDigits base ds := by
  rw [ofDigits, List.foldl_cons, foldl_ofDigits]
  simp

theorem ofDigits_digitsOnto {base : Nat} (places n : Nat) (acc : List Nat)
    (fits : n < base ^ places) :
    ofDigits base (digitsOnto base places n acc) = n * base ^ acc.length + ofDigits base acc := by
  induction places generalizing n acc with
  | zero =>
    have : n = 0 := by simpa using fits
    simp [digitsOnto, this]
  | succ places ih =>
    rw [digitsOnto]
    split
    · exact ofDigits_cons ..
    · rw [ih _ _ (Nat.div_lt_of_lt_mul (by rwa [Nat.pow_succ'] at fits)), ofDigits_cons,
        List.length_cons, Nat.pow_succ', ← Nat.add_assoc, ← Nat.mul_assoc, ← Nat.add_mul,
        Nat.mul_comm (n / base), Nat.div_add_mod]

theorem lt_pow_log2_succ {base : Nat} (two_le : 2 ≤ base) (n : Nat) : n < base ^ (n.log2 + 1) :=
  Nat.lt_of_lt_of_le Nat.lt_log2_self (Nat.pow_le_pow_left two_le _)

theorem ofDigits_digits {base : Nat} (two_le : 2 ≤ base) (n : Nat) :
    ofDigits base (digits base n) = n := by
  rw [digits, ofDigits_digitsOnto _ _ _ (lt_pow_log2_succ two_le n)]
  simp [ofDigits]

theorem exists_digitsOnto_head {base : Nat} (two_le : 2 ≤ base) (places n : Nat) (acc : List Nat)
    (pos : 0 < n) (fits : n < base ^ places) :
    ∃ d ds, digitsOnto base places n acc = d :: ds ∧ d ≠ 0 := by
  induction places generalizing n acc with
  | zero => simp at fits; omega
  | succ places ih =>
    rw [digitsOnto]
    split
    · exact ⟨n, acc, rfl, by omega⟩
    · rename_i large
      exact ih _ _ (Nat.div_pos (by omega) (by omega))
        (Nat.div_lt_of_lt_mul (by rwa [Nat.pow_succ'] at fits))

/-- Only zero is written with a zero in front. -/
theorem exists_digits_head {base n : Nat} (two_le : 2 ≤ base) (pos : 0 < n) :
    ∃ d ds, digits base n = d :: ds ∧ d ≠ 0 :=
  exists_digitsOnto_head two_le _ n [] pos (lt_pow_log2_succ two_le n)

end FieldProgram.Numeral

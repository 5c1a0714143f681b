/-!
# Positional numerals

A numeral is a list of digits, most significant first. `digits` writes a number and `ofDigits`
reads one; `digits_lt` says that every digit is below the base.
-/

namespace FieldProgram.Numeral

/-- The number that a list of digits stands for. -/
def ofDigits (base : Nat) (ds : List Nat) : Nat := ds.foldl (fun v d => v * base + d) 0

/-- Puts at most `places` lowest digits of `n` in front of `acc`, stopping before a leading zero. -/
def digitsOnto (base : Nat) : (places : Nat) → (n : Nat) → (acc : List Nat) → List Nat
  | 0, _, acc => acc
  | places + 1, n, acc =>
    if n < base then n :: acc else digitsOnto base places (n / base) (n % base :: acc)

/-- The digits of a number. A number has no more digits in any base than bits. -/
def digits (base n : Nat) : List Nat := digitsOnto base (n.log2 + 1) n []

/-! ## The digits themselves -/

theorem digitsOnto_lt {base : Nat} (pos : 0 < base) (places n : Nat) (acc : List Nat)
    (h : ∀ d ∈ acc, d < base) : ∀ d ∈ digitsOnto base places n acc, d < base := by
  induction places generalizing n acc with
  | zero => simpa [digitsOnto] using h
  | succ places ih =>
    rw [digitsOnto]
    split
    · simp_all
    · exact ih _ _ (by simp [Nat.mod_lt _ pos]; exact h)

theorem digits_lt {base : Nat} (pos : 0 < base) (n : Nat) : ∀ d ∈ digits base n, d < base :=
  digitsOnto_lt pos _ _ _ (by simp)

theorem digitsOnto_ne_nil (base places n : Nat) (acc : List Nat) :
    digitsOnto base (places + 1) n acc ≠ [] := by
  induction places generalizing n acc with
  | zero => rw [digitsOnto]; split <;> simp [digitsOnto]
  | succ places ih => rw [digitsOnto]; split <;> simp [ih]

theorem digits_ne_nil (base n : Nat) : digits base n ≠ [] := digitsOnto_ne_nil base _ n []

end FieldProgram.Numeral

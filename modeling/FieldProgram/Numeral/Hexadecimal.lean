import FieldProgram.Numeral.Positional

/-!
# Hexadecimal numerals

`Hexadecimal.text` writes an integer of any size as a sign, `0x` and lower-case digits. A digit is
read in either case; `hexValue?_digitChar` says that a written digit reads back.
-/

namespace FieldProgram.Numeral

/-- The value of a hexadecimal digit in either case. -/
def hexValue? (c : Char) : Option Nat :=
  if '0' ≤ c ∧ c ≤ '9' then some (c.toNat - '0'.toNat)
  else if 'a' ≤ c ∧ c ≤ 'f' then some (c.toNat - 'a'.toNat + 10)
  else if 'A' ≤ c ∧ c ≤ 'F' then some (c.toNat - 'A'.toNat + 10)
  else none

theorem hexValue?_digitChar {d : Nat} (h : d < 16) : hexValue? (Nat.digitChar d) = some d := by
  have : ∀ d : Fin 16, hexValue? (Nat.digitChar d) = some d.val := by decide
  exact this ⟨d, h⟩

/-- The hexadecimal digits of a number, as characters. -/
def hexDigits (n : Nat) : List Char := (digits 16 n).map Nat.digitChar

/-- The hexadecimal digits of a number, filled up with zeros to the given width. -/
def hexDigitsPadded (width n : Nat) : List Char :=
  List.replicate (width - (hexDigits n).length) '0' ++ hexDigits n

/-- The text of an integer: a sign if negative, `0x`, and its hexadecimal digits. -/
def hexText (n : Int) : String :=
  String.ofList ((if n < 0 then ['-'] else []) ++ '0' :: 'x' :: hexDigits n.natAbs)

end FieldProgram.Numeral

import FieldProgram.Numeral.Positional
import FieldProgram.Room

/-!
# Decimal numerals and their length limit

Conversions between integers and decimal text, in both directions, are refused beyond
`maxDigits` digits. Leading zeros count and the sign does not. Hexadecimal text has no limit.
-/

namespace FieldProgram.Numeral

/-- The most digits that decimal text may have. -/
def maxDigits : Nat := 4300

/-- The decimal digits of a number, as characters. -/
def decimalDigits (n : Nat) : List Char := (digits 10 n).map Nat.digitChar

/-- The decimal text of an integer that is known to be short, such as a count or an index. -/
def shortDecimal (n : Int) : String :=
  String.ofList ((if n < 0 then ['-'] else []) ++ decimalDigits n.natAbs)

/-- The decimal text of an integer. -/
def decimalText (n : Int) : Except Limit String :=
  if (decimalDigits n.natAbs).length ≤ maxDigits then .ok (shortDecimal n) else .error .writing

/-- The number that decimal digits stand for. -/
def ofDecimalDigits (ds : List Nat) : Except Limit Nat :=
  if ds.length ≤ maxDigits then .ok (ofDigits 10 ds) else .error (.reading ds.length)

/-- The value of an ASCII decimal digit. -/
def asciiDigit? (c : Char) : Option Nat :=
  if '0' ≤ c ∧ c ≤ '9' then some (c.toNat - '0'.toNat) else none

theorem asciiDigit?_digitChar {d : Nat} (h : d < 10) : asciiDigit? (Nat.digitChar d) = some d := by
  have : ∀ d : Fin 10, asciiDigit? (Nat.digitChar d) = some d.val := by decide
  exact this ⟨d, h⟩

end FieldProgram.Numeral

import FieldProgram.Numeral.Hexadecimal
import FieldProgram.Numeral.Decimal

/-!
# Integer literals

A literal is an optional single minus sign followed by `0x` or `0X` and hexadecimal digits, or by
decimal digits. Only ASCII digits count, and nothing may stand before or after.
-/

namespace FieldProgram.Numeral

inductive Base
  | decimal
  | hexadecimal
  deriving DecidableEq, Repr

/-- The value of a digit of the base. -/
def Base.digit? : Base → Char → Option Nat
  | .decimal => asciiDigit?
  | .hexadecimal => hexValue?

/-- An integer literal taken apart. -/
structure Literal where
  negative : Bool
  base : Base
  digits : List Nat
  deriving DecidableEq, Repr

namespace Literal

/-- One or more digits of the base and nothing else. -/
def digitsOf? (base : Base) (cs : List Char) : Option (List Nat) :=
  if cs = [] then none else cs.mapM base.digit?

/-- Takes the text apart after the sign. -/
def unsigned? (negative : Bool) : List Char → Option Literal
  | '0' :: 'x' :: ds => (digitsOf? .hexadecimal ds).map (⟨negative, .hexadecimal, ·⟩)
  | '0' :: 'X' :: ds => (digitsOf? .hexadecimal ds).map (⟨negative, .hexadecimal, ·⟩)
  | ds => (digitsOf? .decimal ds).map (⟨negative, .decimal, ·⟩)

/-- Takes the text of a literal apart. -/
def ofChars? : List Char → Option Literal
  | '-' :: cs => unsigned? true cs
  | cs => unsigned? false cs

/-- The size of a literal, whatever its sign. -/
def magnitude (l : Literal) : Except Limit Nat :=
  match l.base with
  | .hexadecimal => .ok (ofDigits 16 l.digits)
  | .decimal => ofDecimalDigits l.digits

/-- The integer that a literal stands for. -/
def value (l : Literal) : Except Limit Int :=
  l.magnitude.map fun n => if l.negative then -(n : Int) else n

end Literal

end FieldProgram.Numeral

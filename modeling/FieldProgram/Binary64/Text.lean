import FieldProgram.Binary64.Shortest
import FieldProgram.Numeral.Decimal

/-!
# The text of a floating-point number

The shortest digits that read back, written positionally with at least one digit after the point,
or with an exponent outside the range of `Style`.
-/

namespace FieldProgram.Binary64

open Numeral

/-- How digits and a power of ten become text. -/
structure Style where
  /-- The least power of ten of the first digit that is written positionally. -/
  least : Int
  /-- The power of ten from which an exponent is written. -/
  bound : Int
  /-- The least number of digits of a written exponent. -/
  exponentWidth : Nat
  infinity : String
  nan : String

/-- Numbers from a ten-thousandth up to ten to the sixteenth are written positionally. -/
def plainStyle : Style := ⟨-4, 16, 2, "inf", "nan"⟩

/-- Digits with the point after the first `whole` of them; a missing part is a zero. -/
def positional (ds : List Char) (whole : Int) : List Char :=
  if whole ≤ 0 then ['0', '.'] ++ List.replicate (-whole).toNat '0' ++ ds
  else
    let front := ds.take whole.toNat ++ List.replicate (whole.toNat - ds.length) '0'
    let back := ds.drop whole.toNat
    front ++ '.' :: (if back = [] then ['0'] else back)

/-- The first digit, the others after a point, and the exponent with its sign. -/
def scientific (style : Style) (ds : List Char) (power : Int) : List Char :=
  let tail := ds.drop 1
  let exponent := decimalDigits power.natAbs
  ds.take 1 ++ (if tail = [] then [] else '.' :: tail) ++
    'e' :: (if power < 0 then '-' else '+') ::
      (List.replicate (style.exponentWidth - exponent.length) '0' ++ exponent)

/-- The text of a decimal. -/
def Decimal.chars (style : Style) (d : Decimal) : List Char :=
  let ds := decimalDigits d.digits
  let power := d.exponent + ds.length - 1
  if power < style.least ∨ style.bound ≤ power then scientific style ds power
  else positional ds (power + 1)

def textIn (style : Style) : Binary64 → String
  | .nan => style.nan
  | .infinity s => (if s then "-" else "") ++ style.infinity
  | .finite s m e =>
    let d : Decimal := if m = 0 then ⟨0, 0⟩ else shortest m e
    (if s then "-" else "") ++ String.ofList (d.chars style)

/-- The text of a number. -/
def text (x : Binary64) : String := textIn plainStyle x

end FieldProgram.Binary64

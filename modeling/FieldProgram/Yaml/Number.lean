import FieldProgram.Binary64.Basic
import FieldProgram.Text.Blank
import FieldProgram.Text.DecimalDigit
import FieldProgram.Text.Lowercase
import FieldProgram.Yaml.Fault
import FieldProgram.Yaml.Form

/-!
# Numbers of YAML

The number that a scalar tagged as one stands for. Underscores are passed over, and a sign may
stand in front. What is left is an integer in base two, eight, ten or sixteen, a number with a
point, or digits in base sixty between colons. The tag may stand before any text, so the text need
not have the form of a number.
-/

namespace FieldProgram.Yaml

open Numeral Text

/-! ## Numerals -/

/-- The ASCII character that counts for a code point in a numeral: decimal digits of every script
count as digits, and blanks beyond ASCII as spaces. -/
def numeralChar : Code → Char
  | .lone _ => '?'
  | .char c =>
    if c.toNat < 0x7f then c
    else if isBlank c then ' '
    else
      match decimalDigit? c with
      | some d => Nat.digitChar d
      | none => '?'

/-- Blanks that may stand around a numeral. -/
def isNumeralBlank (c : Char) : Bool := c == ' ' || (0x9 ≤ c.toNat && c.toNat ≤ 0xd)

/-- The mark of a base, which may stand before its digits. -/
def baseMark? : Nat → Option Char
  | 2 => some 'b'
  | 8 => some 'o'
  | 16 => some 'x'
  | _ => none

/-- The text without the mark of the base. -/
def dropBaseMark (base : Nat) : List Char → List Char
  | '0' :: c :: cs => if some c.toLower = baseMark? base then cs else '0' :: c :: cs
  | cs => cs

/-- Whether a character is a digit of the base. -/
def isDigitIn (base : Nat) (c : Char) : Bool := (hexValue? c).any (· < base)

/-- The integer of a numeral with blanks around it, a sign and a mark of the base. Too many decimal
digits are noticed before what follows them. -/
def integerIn (base : Nat) (cs : List Code) : Result Int :=
  let body := (cs.map numeralChar).dropWhile isNumeralBlank
  let numeral := dropBaseMark base (unsigned body)
  let ds := (numeral.takeWhile (isDigitIn base)).filterMap hexValue?
  let rest := (numeral.dropWhile (isDigitIn base)).dropWhile isNumeralBlank
  let signed (n : Nat) : Int := if body.head? = some '-' then -(n : Int) else n
  let magnitude := if base = 10 then ofDecimalDigits ds else .ok (ofDigits base ds)
  match magnitude with
  | .error limit => .error (.value (.digitLimit limit))
  | .ok n =>
    if ds = [] || rest ≠ [] then .error (.value (.notInteger base ⟨cs⟩)) else .ok (signed n)

/-- Splits digits off a text. -/
def digitsOf (cs : List Char) : List Nat × List Char :=
  ((cs.takeWhile isDigit).filterMap asciiDigit?, cs.dropWhile isDigit)

/-- The power of ten at the end of a text, zero if there is none. -/
def powerOf? : List Char → Option Int
  | [] => some 0
  | e :: cs =>
    if e == 'e' then
      match digitsOf (unsigned cs) with
      | ([], _) => none
      | (ds, []) =>
        let n : Int := ofDigits 10 ds
        some (if cs.head? = some '-' then -n else n)
      | _ => none
    else none

/-- The number with a point of a text without sign and blanks. -/
def unsignedFloat? (negative : Bool) (cs : List Char) : Option Binary64 :=
  let (whole, cs) := digitsOf cs
  let (fraction, cs) := match cs with
    | '.' :: cs => digitsOf cs
    | cs => ([], cs)
  let ds := whole ++ fraction
  match ds, powerOf? cs with
  | [], _ => none
  | _, none => none
  | ds, some power => some (.ofDecimal negative (ofDigits 10 ds) (power - fraction.length))

/-- The number with a point of a text in lower case, with blanks around it and a sign. Infinity and
NaN have names. -/
def floatOf (cs : List Code) : Result Binary64 :=
  let body := (cs.map numeralChar).dropWhile isNumeralBlank
  let body := (body.reverse.dropWhile isNumeralBlank).reverse
  let negative := body.head? = some '-'
  let number := unsigned body
  let found :=
    if ["inf", "infinity"].contains (String.ofList number) then some (.infinity negative)
    else if String.ofList number = "nan" then some .nan
    else unsignedFloat? negative number
  match found with
  | some x => .ok x
  | none => .error (.value (.notFloat ⟨cs⟩))

/-! ## Scalars -/

/-- The text without underscores. -/
def withoutMarks (t : Text) : List Code := t.codes.filter (· != .char '_')

/-- The text without a sign in front. -/
def unsignedCodes : List Code → List Code
  | .char '+' :: cs => cs
  | .char '-' :: cs => cs
  | cs => cs

/-- The integer of a scalar, its underscores and first sign taken off. -/
def unsignedInteger : List Code → Result Int
  | [] => .error (.value .noNumber)
  | [.char '0'] => .ok 0
  | .char '0' :: .char 'b' :: ds => integerIn 2 ds
  | .char '0' :: .char 'x' :: ds => integerIn 16 ds
  | .char '0' :: ds => integerIn 8 (.char '0' :: ds)
  | cs =>
    if cs.contains (.char ':') then do
      let ds ← (splitAtEach (.char ':') cs).mapM (integerIn 10)
      return ds.foldl (fun n d => n * 60 + d) 0
    else integerIn 10 cs

/-- The integer that a scalar stands for. -/
def integerOf (t : Text) : Result Int :=
  let cs := withoutMarks t
  if cs = [] then .error (.value .noNumber)
  else do
    let n ← unsignedInteger (unsignedCodes cs)
    return if cs.head? = some (.char '-') then -n else n

/-- The sum of digits in base sixty, the last digit first, each multiplied by its place value. -/
def sixtiesFrom : (place : Int) → (sum : Binary64) → List Binary64 → Result Binary64
  | _, sum, [] => .ok sum
  | place, sum, d :: ds =>
    match Binary64.ofInt place with
    | .finite s m e => sixtiesFrom (place * 60) (sum.add (d.mul (.finite s m e))) ds
    | _ => .error (.value .placeTooLarge)

/-- The number of a scalar in lower case, its underscores and first sign taken off. -/
def unsignedNumber (cs : List Code) : Result Binary64 :=
  if cs = (".inf" : Text).codes then .ok (.infinity false)
  else if cs = (".nan" : Text).codes then .ok .nan
  else if cs.contains (.char ':') then do
    let ds ← (splitAtEach (.char ':') cs).mapM floatOf
    sixtiesFrom 1 (.zero false) ds.reverse
  else floatOf cs

/-- The code points of a number with a point: in lower case and without underscores. -/
def numberCodes (t : Text) : List Code := (lowered ⟨withoutMarks t⟩).codes

/-- The number with a point that a scalar stands for. -/
def numberOf (t : Text) : Result Binary64 :=
  let cs := numberCodes t
  if cs = [] then .error (.value .noNumber)
  else do
    let x ← unsignedNumber (unsignedCodes cs)
    return if cs.head? = some (.char '-') then x.negate else x

/-- Whether a scalar that is no number is so by the name for that. -/
def namesNan (t : Text) : Bool := unsignedCodes (numberCodes t) == (".nan" : Text).codes

end FieldProgram.Yaml

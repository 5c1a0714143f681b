import FieldProgram.Numeral.Decimal
import FieldProgram.Numeral.Hexadecimal

/-!
# Forms of plain scalars

What a scalar without quotes and tag stands for is told by its form: a truth value, an integer, a
number with a point, a date, null, or a text where it has none of these forms. Underscores may
separate digits, and numbers may be written in base sixty with colons. A line feed at the end does
not count.
-/

namespace FieldProgram.Yaml

open Numeral

def isDigit (c : Char) : Bool := (asciiDigit? c).isSome

/-- The text without a sign in front. -/
def unsigned : List Char → List Char
  | '+' :: cs => cs
  | '-' :: cs => cs
  | cs => cs

/-- Splits a list at each separator. -/
def splitAtEach {α : Type} [BEq α] (separator : α) : List α → List (List α)
  | [] => [[]]
  | a :: as =>
    if a == separator then [] :: splitAtEach separator as
    else
      match splitAtEach separator as with
      | [] => [[a]]
      | part :: parts => (a :: part) :: parts

/-- The text without a line feed at its end. -/
def dropLineFeed (cs : List Char) : List Char :=
  if cs.getLast? = some '\n' then cs.dropLast else cs

/-- A digit in base sixty: one or two decimal digits below sixty. -/
def isSixtieth : List Char → Bool
  | [a] => isDigit a
  | [a, b] => '0' ≤ a && a ≤ '5' && isDigit b
  | _ => false

/-- A number in base sixty: decimal digits, and digits in base sixty behind colons. -/
def isSexagesimal (first : Char → Bool) (cs : List Char) : Bool :=
  match splitAtEach ':' cs with
  | (a :: ds) :: p :: ps =>
    first a && ds.all (fun c => isDigit c || c == '_') && (p :: ps).all isSixtieth
  | _ => false

/-- Whether a text has the form of an integer. -/
def isIntForm (cs : List Char) : Bool :=
  match unsigned cs with
  | '0' :: 'b' :: ds => ds ≠ [] && ds.all fun c => c == '0' || c == '1' || c == '_'
  | '0' :: 'x' :: ds => ds ≠ [] && ds.all fun c => (hexValue? c).isSome || c == '_'
  | '0' :: ds => ds.all fun c => ('0' ≤ c && c ≤ '7') || c == '_'
  | d :: ds =>
    (isDigit d && ds.all fun c => isDigit c || c == '_') ||
      isSexagesimal (fun c => isDigit c && c != '0') (d :: ds)
  | [] => false

/-- Whether a text is empty or an exponent with a sign. -/
def isExponent : List Char → Bool
  | [] => true
  | e :: s :: d :: ds =>
    (e == 'e' || e == 'E') && (s == '-' || s == '+') && (d :: ds).all isDigit
  | _ => false

/-- Whether a text is digits behind a point, and perhaps an exponent. -/
def isFraction (cs : List Char) : Bool := isExponent (cs.dropWhile fun c => isDigit c || c == '_')

/-- Whether a text is a number with a point in base ten, without its sign. -/
def isDecimalFloat : List Char → Bool
  | d :: ds =>
    isDigit d &&
      match ds.dropWhile fun c => isDigit c || c == '_' with
      | '.' :: cs => isFraction cs
      | _ => false
  | [] => false

/-- Whether a text is a number with a point in base sixty, without its sign. -/
def isSexagesimalFloat (cs : List Char) : Bool :=
  match cs.dropWhile (· != '.') with
  | '.' :: ds =>
    ds.all (fun c => isDigit c || c == '_') && isSexagesimal isDigit (cs.takeWhile (· != '.'))
  | _ => false

/-- Whether a text has the form of a number with a point. -/
def isFloatForm (cs : List Char) : Bool :=
  let body := unsigned cs
  (match cs with
    | '.' :: d :: ds => isDigit d && isFraction ds
    | _ => false) ||
    isDecimalFloat body || isSexagesimalFloat body ||
    [".inf", ".Inf", ".INF"].contains (String.ofList body) ||
    [".nan", ".NaN", ".NAN"].contains (String.ofList cs)

/-- The words for truth values. -/
def truthWords : List (String × Bool) :=
  [("yes", true), ("no", false), ("true", true), ("false", false), ("on", true), ("off", false)]

/-- Whether a text is a word for a truth value: in lower case, upper case or capitalised. -/
def isBoolForm (cs : List Char) : Bool :=
  truthWords.any fun (w, _) =>
    let s := String.ofList cs
    s == w || s == w.toUpper || s == w.capitalize

/-- Whether a text stands for null. -/
def isNullForm (cs : List Char) : Bool :=
  ["~", "null", "Null", "NULL", ""].contains (String.ofList cs)

end FieldProgram.Yaml

import FieldProgram.Document.Basic
import FieldProgram.Json.Error
import FieldProgram.Numeral.Literal

/-!
# Strings and numbers of JSON

`stringStep` reads one code point of a string, which may be written as an escape; a pair of escapes
may stand for one character beyond the basic plane. A half of such a pair on its own is a code point
too. `number?` splits a number off a text.
-/

namespace FieldProgram.Json

open Numeral

/-! ## Strings -/

/-- The character of a one-letter escape. -/
def simpleEscape? : Char → Option Char
  | '"' => some '"'
  | '\\' => some '\\'
  | '/' => some '/'
  | 'b' => some '\x08'
  | 'f' => some '\x0c'
  | 'n' => some '\n'
  | 'r' => some '\r'
  | 't' => some '\t'
  | _ => none

/-- The value of a hexadecimal digit. -/
def hexCode? (c : Code) : Option Nat := c.char?.bind hexValue?

/-- The value of four hexadecimal digits, after which more text must follow. -/
def codeUnit? : List Code → Option (Nat × List Code)
  | a :: b :: c :: d :: e :: r => do
    let ds ← [a, b, c, d].mapM hexCode?
    return (ofDigits 16 ds, e :: r)
  | _ => none

def isHighSurrogate (u : Nat) : Bool := 0xd800 ≤ u && u < 0xdc00

def isLowSurrogate (u : Nat) : Bool := 0xdc00 ≤ u && u < 0xe000

/-- The character of a pair of code units. -/
def pairCode (high low : Nat) : Code :=
  .ofNumber (0x10000 + (high - 0xd800) * 0x400 + (low - 0xdc00))

/-- What stands next inside a string. -/
inductive StringStep
  | close (rest : List Code)
  | code (c : Code) (rest : List Code)
  | fail (rule : Complaint) (left : Nat)
  deriving DecidableEq, Repr

/-- Reads the rest of an escape of four digits; `cs` starts after its letter. -/
def unicodeStep (cs : List Code) : StringStep :=
  match codeUnit? cs with
  | none => .fail .badUnicodeEscape (cs.length + 1)
  | some (u, rest) =>
    match isHighSurrogate u, rest with
    | true, .char '\\' :: .char 'u' :: more =>
      match codeUnit? more with
      | none => .fail .badUnicodeEscape (more.length + 1)
      | some (v, after) =>
        if isLowSurrogate v then .code (pairCode u v) after else .code (.ofNumber u) rest
    | _, _ => .code (.ofNumber u) rest

/-- Reads the rest of an escape; `cs` starts after the backslash, and the opening quote of the
string has `start` code points from it on. -/
def escapeStep (start : Nat) : List Code → StringStep
  | [] => .fail .unterminatedString start
  | .char 'u' :: r => unicodeStep r
  | e :: r =>
    match e.char?.bind simpleEscape? with
    | some c => .code (.char c) r
    | none => .fail .badEscape (r.length + 2)

/-- Reads one code point of a string whose opening quote has `start` code points from it on. -/
def stringStep (start : Nat) : List Code → StringStep
  | [] => .fail .unterminatedString start
  | .char '"' :: r => .close r
  | .char '\\' :: r => escapeStep start r
  | c :: r =>
    if c.number < 0x20 then .fail .controlCharacter (r.length + 1) else .code c r

/-- Reads code points up to the closing quote, in at most `fuel` steps, onto those read. -/
def stringFrom (start : Nat) : (fuel : Nat) → (read : List Code) → List Code →
    Except ReadError (Text × List Code)
  | 0, _, _ => .error (.grammar .unterminatedString start)
  | fuel + 1, read, cs =>
    match stringStep start cs with
    | .close rest => .ok (⟨read.reverse⟩, rest)
    | .code c rest => stringFrom start fuel (c :: read) rest
    | .fail rule left => .error (.grammar rule left)

/-- Reads a string from behind its opening quote. -/
def string (cs : List Code) : Except ReadError (Text × List Code) :=
  stringFrom (cs.length + 1) (cs.length + 1) [] cs

/-! ## Numbers -/

/-- A number taken apart: its digits before and after the point, and its power of ten. -/
structure Number where
  negative : Bool
  whole : List Nat
  fraction : List Nat
  /-- The written power of ten, if there is one. -/
  power : Option Int
  deriving DecidableEq, Repr

/-- The value of a decimal digit. -/
def digitCode? (c : Code) : Option Nat := c.char?.bind asciiDigit?

def isDigitCode (c : Code) : Bool := (digitCode? c).isSome

/-- The digits at the front of a text, and the rest. -/
def digitRun (cs : List Code) : List Nat × List Code :=
  (cs.takeWhile isDigitCode |>.filterMap digitCode?, cs.dropWhile isDigitCode)

/-- The digits before the point: a lone zero, or digits that do not start with one. -/
def whole? : List Code → Option (List Nat × List Code)
  | .char '0' :: r => some ([0], r)
  | c :: r => if isDigitCode c then some (digitRun (c :: r)) else none
  | [] => none

/-- A point with digits after it, if there is one. -/
def fraction (cs : List Code) : List Nat × List Code :=
  match cs with
  | .char '.' :: r => let (ds, rest) := digitRun r; if ds = [] then ([], cs) else (ds, rest)
  | _ => ([], cs)

/-- The sign in front of the digits of a power. -/
def powerSign : List Code → Bool × List Code
  | .char '-' :: r => (true, r)
  | .char '+' :: r => (false, r)
  | r => (false, r)

/-- A power of ten, if there is one. -/
def power (cs : List Code) : Option Int × List Code :=
  match cs with
  | c :: r =>
    if c = .char 'e' ∨ c = .char 'E' then
      let (negative, r) := powerSign r
      let (ds, rest) := digitRun r
      let n : Int := ofDigits 10 ds
      if ds = [] then (none, cs) else (some (if negative then -n else n), rest)
    else (none, cs)
  | [] => (none, [])

/-- Splits a number without its sign off a text. -/
def unsignedNumber? (negative : Bool) (cs : List Code) : Option (Number × List Code) := do
  let (w, cs) ← whole? cs
  let (f, cs) := fraction cs
  let (p, cs) := power cs
  return (⟨negative, w, f, p⟩, cs)

/-- Splits a number off a text. -/
def number? : List Code → Option (Number × List Code)
  | .char '-' :: r => unsignedNumber? true r
  | cs => unsignedNumber? false cs

/-- The value of a number: an integer if it has neither a point nor a power. -/
def Number.value (n : Number) : Except Limit Document :=
  if n.fraction = [] ∧ n.power = none then do
    let m ← ofDecimalDigits n.whole
    return .int (if n.negative then -(m : Int) else m)
  else
    let digits := ofDigits 10 (n.whole ++ n.fraction)
    .ok (.float (.ofDecimal n.negative digits (n.power.getD 0 - n.fraction.length)))

end FieldProgram.Json

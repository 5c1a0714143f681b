import FieldProgram.Binary64.Basic
import FieldProgram.Numeral.Decimal
import FieldProgram.Numeral.Hexadecimal
import FieldProgram.Text.Basic

/-!
# Templates

A text is a template for one number. A directive in it, from a percent sign to the letter of a
form, asks for the number and says how it is written; it may give a width and a precision, or ask
for the number in the place of either. Two percent signs stand for one. `Template.check` tells
whether a number fills a template, which takes exactly one place for it.
-/

namespace FieldProgram.Template

open Numeral

/-- An extent that a directive may give to the written number. -/
inductive Extent
  | width
  | precision
  deriving DecidableEq, Repr

/-- The largest width and the largest precision. -/
def Extent.bound : Extent → Nat
  | .width => 0x7fffffffffffffff
  | .precision => 0x7fffffff

/-- Why a number does not fill a template. -/
inductive Fault
  /-- A directive that asks for a number by name. -/
  | named
  /-- More than one place for the number. -/
  | exhausted
  /-- No place for the number. -/
  | unused
  /-- A directive that the template ends in. -/
  | incomplete
  | unknownForm (c : Code) (index : Nat)
  /-- An extent in digits beyond its bound. -/
  | overlong (e : Extent)
  /-- A number in the place of an extent and beyond its bound. -/
  | tooLargeFor (e : Extent)
  /-- A number that is no code point, to be written as one. -/
  | noCharacter
  /-- A number beyond all floating-point numbers, to be written as one. -/
  | noFloat

/-- How a character of a template is shown: as it is if ASCII has it in print. -/
def shownForm : Code → Char
  | .char c => if 31 ≤ c.toNat ∧ c.toNat ≤ 126 then c else '?'
  | .lone _ => '?'

def Fault.message : Fault → String
  | .named => "format requires a mapping"
  | .exhausted => "not enough arguments for format string"
  | .unused => "not all arguments converted during string formatting"
  | .incomplete => "incomplete format"
  | .unknownForm c index =>
    "unsupported format character '" ++ String.singleton (shownForm c) ++ "' (" ++
      hexText c.number ++ ") at index " ++ shortDecimal index
  | .overlong .width => "width too big"
  | .overlong .precision => "precision too big"
  | .tooLargeFor .width => "Python int too large to convert to C ssize_t"
  | .tooLargeFor .precision => "Python int too large to convert to C int"
  | .noCharacter => "%c arg not in range(0x110000)"
  | .noFloat => "int too large to convert to float"

/-! ## Directives -/

/-- Whether a code point is one of some characters. -/
def isAmong (marks : String) : Code → Bool
  | .char c => marks.toList.contains c
  | .lone _ => false

/-- The value of a decimal digit. -/
def digit? (c : Code) : Option Nat := c.char?.bind asciiDigit?

/-- Whether the number has been asked for, and what is left of the template. -/
abbrev Progress := Bool × List Code

/-- Takes an extent off the front: a star that asks for the number, or digits. -/
def takeExtent (n : Nat) (e : Extent) (used : Bool) : List Code → Except Fault Progress
  | .char '*' :: cs =>
    if used then .error .exhausted
    else if e.bound < n then .error (.tooLargeFor e)
    else .ok (true, cs)
  | cs =>
    if e.bound < ofDigits 10 ((cs.takeWhile fun c => (digit? c).isSome).filterMap digit?) then
      .error (.overlong e)
    else .ok (used, cs.dropWhile fun c => (digit? c).isSome)

/-- Takes a point and a precision behind it off the front. -/
def takePrecision (n : Nat) (used : Bool) : List Code → Except Fault Progress
  | .char '.' :: cs => takeExtent n .precision used cs
  | cs => .ok (used, cs)

/-- Drops the letter of a size, which says nothing. -/
def dropSize : List Code → List Code
  | c :: cs => if isAmong "hlL" c then cs else c :: cs
  | [] => []

/-- Refuses a form that the number cannot be written in. -/
def checkForm (n index : Nat) (c : Code) : Except Fault Unit :=
  if isAmong "diuoxXsra" c then .ok ()
  else if isAmong "eEfFgG" c then
    if Binary64.ofInt n = .infinity false then .error .noFloat else .ok ()
  else if isAmong "c" c then if 0x10ffff < n then .error .noCharacter else .ok ()
  else .error (.unknownForm c index)

/-- Takes the form of a directive off the front, with the number. -/
def takeForm (n length : Nat) (used : Bool) : List Code → Except Fault Progress
  | [] => .error .incomplete
  | c :: cs =>
    if used then .error .exhausted
    else (checkForm n (length - cs.length - 1) c).map fun _ => (true, cs)

/-- Takes what follows a percent sign off the front, in a template of the given length. -/
def takeDirective (n length : Nat) (used : Bool) : List Code → Except Fault Progress
  | .char '%' :: cs => .ok (used, cs)
  | .char '(' :: _ => .error .named
  | cs => do
    let (used, cs) ← takeExtent n .width used (cs.dropWhile (isAmong "-+ #0"))
    let (used, cs) ← takePrecision n used cs
    takeForm n length used (dropSize cs)

/-! ## Templates -/

/-- Whether the number has been asked for after at most so many directives. -/
def asksFor (n length : Nat) : (directives : Nat) → (used : Bool) → List Code → Except Fault Bool
  | 0, used, _ => .ok used
  | directives + 1, used, cs =>
    match cs.dropWhile (· != .char '%') with
    | [] => .ok used
    | _ :: cs => do
      let (used, cs) ← takeDirective n length used cs
      asksFor n length directives used cs

/-- Refuses a number that does not fill a template. -/
def check (template : Text) (n : Nat) : Except Fault Unit := do
  let length := template.codes.length
  if ← asksFor n length length false template.codes then .ok () else .error .unused

end FieldProgram.Template

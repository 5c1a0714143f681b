import FieldProgram.Numeral.Hexadecimal
import FieldProgram.Yaml.Cursor
import FieldProgram.Yaml.Fault

/-!
# Quoted scalars

Between single quotes a quote is written twice and nothing else is special. Between double quotes a
backslash starts an escape. In both a line break stands for a space and further ones for line
breaks; an escaped line break stands for nothing.
-/

namespace FieldProgram.Yaml

open Numeral

inductive Quote
  | single
  | double
  deriving DecidableEq, Repr

def Quote.char : Quote → Char
  | .single => '\''
  | .double => '"'

/-- The character of an escape of one letter. -/
def letterEscape? : Char → Option Char
  | '0' => some '\x00'
  | 'a' => some '\x07'
  | 'b' => some '\x08'
  | 't' => some '\t'
  | '\t' => some '\t'
  | 'n' => some '\n'
  | 'v' => some '\x0b'
  | 'f' => some '\x0c'
  | 'r' => some '\r'
  | 'e' => some '\x1b'
  | ' ' => some ' '
  | '"' => some '"'
  | '\\' => some '\\'
  | '/' => some '/'
  | 'N' => some '\x85'
  | '_' => some '\xa0'
  | 'L' => some '\u2028'
  | 'P' => some '\u2029'
  | _ => none

/-- The number of digits of an escape by code point. -/
def codeEscape? : Char → Option Nat
  | 'x' => some 2
  | 'u' => some 4
  | 'U' => some 8
  | _ => none

/-- The least number of an escape that has more than 31 bits. -/
def codeBound : Nat := 0x80000000

/-- The code point of an escape by number. -/
def escapedCode (width : Nat) (c : Cursor) : Result Code :=
  match (c.rest.take width).mapM hexValue? with
  | none => noToken "escape sequence"
  | some ds =>
    let number := ofDigits 16 ds
    if ds.length < width then noToken "escape sequence"
    else if codeBound ≤ number then .error (.value .codeTooLarge)
    else if 0x110000 ≤ number then .error (.value .noCode)
    else .ok (.ofNumber number)

/-- Passes blanks and line breaks, and gives the line breaks. -/
def quotedBreaks : (fuel : Nat) → (read : List Char) → Cursor → Result (List Char × Cursor)
  | 0, read, c => .ok (read, c)
  | fuel + 1, read, c =>
    if c.isBound then noToken "quoted scalar"
    else
      let c := c.skip fun ch => ch == ' ' || ch == '\t'
      if c.next?.any isBreak then
        let (b, c) := c.lineBreak
        quotedBreaks fuel (read ++ b) c
      else .ok (read, c)

/-- Passes blanks, with what they stand for. -/
def quotedGap (c : Cursor) : Result (List Char × Cursor) :=
  let (blanks, c) := c.span fun ch => ch == ' ' || ch == '\t'
  match c.next? with
  | none => noToken "quoted scalar"
  | some ch =>
    if isBreak ch then do
      let (first, c) := c.lineBreak
      let (others, c) ← quotedBreaks (c.rest.length + 1) [] c
      let head := if first ≠ ['\n'] then first else if others = [] then [' '] else []
      return (head ++ others, c)
    else .ok (blanks, c)

/-- Reads the escape behind a backslash. -/
def escape (c : Cursor) : Result (List Code × Cursor) :=
  match c.next? with
  | none => noToken "escape sequence"
  | some ch =>
    match letterEscape? ch, codeEscape? ch with
    | some r, _ => .ok ([.char r], c.advance)
    | none, some width => do
      let r ← escapedCode width c.advance
      return ([r], c.forward (width + 1))
    | none, none =>
      if isBreak ch then do
        let (_, c) := c.lineBreak
        let (cs, c) ← quotedBreaks (c.rest.length + 1) [] c
        return (cs.map .char, c)
      else noToken "escape sequence"

/-- Reads up to the closing quote onto what was read, the last code point first. -/
def quotedFrom (q : Quote) : (fuel : Nat) → (read : List Code) → Cursor → Result (Text × Cursor)
  | 0, _, _ => noToken "quoted scalar"
  | fuel + 1, read, c =>
    match c.rest with
    | [] => noToken "quoted scalar"
    | ch :: rest =>
      if ch == q.char then
        if q == .single && rest.head? == some '\'' then
          quotedFrom q fuel (.char '\'' :: read) (c.forward 2)
        else .ok (⟨read.reverse⟩, c.advance)
      else if q == .double && ch == '\\' then do
        let (cs, c) ← escape c.advance
        quotedFrom q fuel (cs.reverse ++ read) c
      else if blankOrEnd (some ch) then do
        let (cs, c) ← quotedGap c
        quotedFrom q fuel ((cs.map .char).reverse ++ read) c
      else quotedFrom q fuel (.char ch :: read) c.advance

/-- Reads a scalar from its opening quote on. -/
def quotedScalar (q : Quote) (c : Cursor) : Result (Text × Cursor) :=
  quotedFrom q (c.rest.length + 1) [] c.advance

end FieldProgram.Yaml

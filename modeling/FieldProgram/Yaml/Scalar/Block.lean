import FieldProgram.Numeral.Decimal
import FieldProgram.Yaml.Cursor
import FieldProgram.Yaml.Fault

/-!
# Block scalars

A block scalar is the indented lines below a header. The header says whether lines are kept or
folded into one another, what becomes of the line breaks at the end, and perhaps the indentation.
-/

namespace FieldProgram.Yaml

open Numeral

/-- What becomes of the line breaks at the end of a block. -/
inductive Chomping
  | strip
  | clip
  | keep
  deriving DecidableEq, Repr

/-- The header of a block. -/
structure BlockHeader where
  chomping : Chomping
  /-- The indentation relative to the surrounding block, where it is given. -/
  increment : Option Nat
  deriving DecidableEq, Repr

/-- Reads the sign for the line breaks at the end. -/
def chompingSign (c : Cursor) : Option Chomping × Cursor :=
  if c.isAt '+' then (some .keep, c.advance)
  else if c.isAt '-' then (some .strip, c.advance)
  else (none, c)

/-- Reads the digit for the indentation, which is not zero. -/
def incrementDigit (c : Cursor) : Result (Option Nat × Cursor) :=
  match c.next?.bind asciiDigit? with
  | none => .ok (none, c)
  | some 0 => noToken "block scalar"
  | some n => .ok (some n, c.advance)

/-- Reads a header, its two parts in either order, up to the end of the line. -/
def blockHeader (c : Cursor) : Result (BlockHeader × Cursor) := do
  let (sign, c) := chompingSign c
  let (increment, c) ← incrementDigit c
  let (sign, c) := match sign, increment with
    | none, some _ => chompingSign c
    | sign, _ => (sign, c)
  if !spaceOrEnd c.next? then noToken "block scalar"
  else
    let c := c.skipSpaces.skipComment
    if !breakOrEnd c.next? then noToken "block scalar"
    else return (⟨sign.getD .clip, increment⟩, c.lineBreak.2)

/-- Passes empty lines and spaces to find the indentation: the line breaks, and the largest column
reached. -/
def blockIndentation : (fuel : Nat) → (read : List Char) → (deepest : Nat) → Cursor →
    List Char × Nat × Cursor
  | 0, read, deepest, c => (read, deepest, c)
  | fuel + 1, read, deepest, c =>
    match c.next? with
    | some ch =>
      if ch == ' ' then
        let c := c.advance
        blockIndentation fuel read (max deepest c.column) c
      else if isBreak ch then
        let (b, c) := c.lineBreak
        blockIndentation fuel (read ++ b) deepest c
      else (read, deepest, c)
    | none => (read, deepest, c)

/-- Passes spaces up to the indentation. -/
def skipIndent (indent : Nat) (c : Cursor) : Cursor :=
  c.forward (min (c.rest.takeWhile (· == ' ')).length (indent - c.column))

/-- Passes empty lines and the indentation, and gives the line breaks. -/
def blockBreaks (indent : Nat) : (fuel : Nat) → (read : List Char) → Cursor → List Char × Cursor
  | 0, read, c => (read, c)
  | fuel + 1, read, c =>
    let c := skipIndent indent c
    if c.next?.any isBreak then
      let (b, c) := c.lineBreak
      blockBreaks indent fuel (read ++ b) c
    else (read, c)

/-- Whether a line of the block is here. -/
def atBlockLine (indent : Nat) (c : Cursor) : Bool := c.column == indent && c.next?.isSome

/-- Whether the line here starts with a character that is not a blank. -/
def startsSolid (c : Cursor) : Bool := !(c.isAt ' ' || c.isAt '\t')

/-- The lines of a block and what follows them. -/
structure BlockText where
  text : List Char
  /-- The line break of the last line. -/
  lastBreak : List Char
  /-- The line breaks of the empty lines behind it. -/
  breaks : List Char
  after : Cursor

/-- Reads the lines of a block, the first one behind the given line breaks. -/
def blockLines (folded : Bool) (indent : Nat) :
    (fuel : Nat) → (before : List Char) → Cursor → BlockText
  | 0, before, c => ⟨[], [], before, c⟩
  | fuel + 1, before, c =>
    if atBlockLine indent c then
      let solid := startsSolid c
      let (line, c) := c.span (!isBreak ·)
      let (lastBreak, c) := c.lineBreak
      let (breaks, c) := blockBreaks indent fuel [] c
      if atBlockLine indent c then
        let joint :=
          if folded && lastBreak == ['\n'] && solid && startsSolid c then
            if breaks = [] then [' '] else []
          else lastBreak
        let t := blockLines folded indent fuel breaks c
        { t with text := before ++ line ++ joint ++ t.text }
      else ⟨before ++ line, lastBreak, breaks, c⟩
    else ⟨[], [], before, c⟩

/-- Reads a block scalar from its sign on, inside a block of the given indentation. -/
def blockScalar (folded : Bool) (outer : Int) (c : Cursor) : Result (List Char × Cursor) := do
  let (header, c) ← blockHeader c.advance
  let least := (max 1 (outer + 1)).toNat
  let (breaks, indent, c) := match header.increment with
    | none =>
      let (breaks, deepest, c) := blockIndentation (c.rest.length + 1) [] 0 c
      (breaks, max least deepest, c)
    | some n =>
      let indent := least + n - 1
      let (breaks, c) := blockBreaks indent (c.rest.length + 1) [] c
      (breaks, indent, c)
  let t := blockLines folded indent (c.rest.length + 1) breaks c
  let text := match header.chomping with
    | .strip => t.text
    | .clip => t.text ++ t.lastBreak
    | .keep => t.text ++ t.lastBreak ++ t.breaks
  return (text, t.after)

end FieldProgram.Yaml

import FieldProgram.Yaml.Cursor

/-!
# Plain scalars

A plain scalar has no quotes. It ends at a colon before a blank, at a comment after a blank, inside
brackets also at a bracket or comma, and where a line starts left of its indentation. Inside it a
line break stands for a space and further ones for line breaks.
-/

namespace FieldProgram.Yaml

/-- Whether a character is one of the brackets and marks that separate items in brackets. -/
def isFlowMark (c : Char) : Bool :=
  c == ',' || c == '[' || c == ']' || c == '\x7b' || c == '\x7d'

/-- The characters up to a blank or an end of the scalar. -/
def plainRun (flow : Bool) : List Char → List Char
  | [] => []
  | c :: rest =>
    if blankOrEnd (some c) || (flow && (c == '?' || isFlowMark c)) ||
        (c == ':' && (blankOrEnd rest.head? || (flow && rest.head?.any isFlowMark))) then []
    else c :: plainRun flow rest

/-- The blanks between two runs of a plain scalar. -/
structure PlainGap where
  /-- What the blanks stand for in the text. -/
  text : List Char
  after : Cursor
  /-- Whether they hold a line break. -/
  broken : Bool

/-- Passes spaces and line breaks up to a bound of a document. Nothing is said where one is met. -/
def plainBreaks : (fuel : Nat) → (read : List Char) → Cursor → Option (List Char) × Cursor
  | 0, _, c => (none, c)
  | fuel + 1, read, c =>
    match c.next? with
    | some ch =>
      if ch == ' ' then plainBreaks fuel read c.advance
      else if isBreak ch then
        let (b, c) := c.lineBreak
        if c.isBound then (none, c) else plainBreaks fuel (read ++ b) c
      else (some read, c)
    | none => (some read, c)

/-- Passes the blanks after a run. -/
def plainGap (c : Cursor) : PlainGap :=
  let (spaces, c) := c.span (· == ' ')
  if c.next?.any isBreak then
    let (first, c) := c.lineBreak
    if c.isBound then ⟨[], c, true⟩
    else
      match plainBreaks (c.rest.length + 1) [] c with
      | (none, c) => ⟨[], c, true⟩
      | (some others, c) =>
        let head := if first ≠ ['\n'] then first else if others = [] then [' '] else []
        ⟨head ++ others, c, true⟩
  else ⟨spaces, c, false⟩

/-- A plain scalar that was read. -/
structure PlainScalar where
  text : List Char
  after : Cursor
  /-- Whether a line break was passed behind the last run. -/
  broken : Bool

/-- Reads runs and the blanks between them onto what was read. A run after the first has blanks
before it. -/
def plainFrom (flow : Bool) (indent : Int) :
    (fuel : Nat) → (read : List Char) → (gap : List Char) → (broken : Bool) → Cursor → PlainScalar
  | 0, read, _, broken, c => ⟨read, c, broken⟩
  | fuel + 1, read, gap, broken, c =>
    let run := if c.isAt '#' then [] else plainRun flow c.rest
    if run = [] then ⟨read, c, broken⟩
    else
      let read := read ++ gap ++ run
      let next := plainGap (c.forward run.length)
      if next.text = [] || next.after.isAt '#' || (!flow && (next.after.column : Int) < indent) then
        ⟨read, next.after, next.broken⟩
      else plainFrom flow indent fuel read next.text next.broken next.after

/-- Reads a plain scalar. -/
def plainScalar (flow : Bool) (indent : Int) (c : Cursor) : PlainScalar :=
  plainFrom flow indent (c.rest.length + 1) [] [] false c

end FieldProgram.Yaml

import FieldProgram.Yaml.Property
import FieldProgram.Yaml.Scalar.Block
import FieldProgram.Yaml.Scalar.Plain
import FieldProgram.Yaml.Scalar.Quoted

/-!
# From text to tokens

A mapping key without a mark of its own is known only by the colon behind it. The lexer keeps, for
each depth of brackets, the place where such a key may have started; a colon turns that place into
the start of a key, and `weave` puts the tokens for it in once all tokens are known.

Where a value does not exist, such as the code point of an escape, the tokens end with a mark. A
reader gets to the mark only if it needs a token that is not known there: one that was not read, or
one that may still turn out to be a key.
-/

namespace FieldProgram.Yaml

/-- A place where a key may have started. -/
structure KeyStart where
  /-- The number of tokens before it. -/
  token : Nat
  /-- Whether it must turn out to be a key, because it is the first on the line of a block. -/
  required : Bool
  index : Nat
  line : Nat
  column : Nat

/-- A key to be put in before a token. -/
structure KeyMark where
  /-- The number of tokens before it. -/
  token : Nat
  /-- Whether it is the first of a block mapping. -/
  first : Bool

structure Lexer where
  cursor : Cursor
  /-- The tokens read, the last first. -/
  tokens : List Token := []
  count : Nat := 0
  marks : List KeyMark := []
  /-- The column of the block, minus one outside all blocks. -/
  indent : Int := -1
  outer : List Int := []
  /-- The depth of brackets. -/
  depth : Nat := 0
  /-- Whether a key may start here. -/
  keyAllowed : Bool := true
  /-- Where a key may have started, by depth of brackets. -/
  starts : List (Nat × KeyStart) := []

namespace Lexer

/-! ## Steps of the lexer -/

def push (l : Lexer) (t : Token) : Lexer :=
  { l with tokens := t :: l.tokens, count := l.count + 1 }

/-- Pushes a token of so many characters. -/
def take (l : Lexer) (n : Nat) (t : Token) : Lexer :=
  { l.push t with cursor := l.cursor.forward n }

/-- Whether the lexer is outside all brackets. -/
def inBlock (l : Lexer) : Bool := l.depth == 0

/-- Whether a key that started there could still be followed by its colon here. -/
def isFresh (l : Lexer) (s : KeyStart) : Bool :=
  s.line == l.cursor.line && l.cursor.index - s.index ≤ 1024

/-- Forgets the places that are too far back, none of which may have had to be a key. -/
def dropStale (l : Lexer) : Result Lexer :=
  if l.starts.any fun (_, s) => !l.isFresh s && s.required then noToken "key"
  else .ok { l with starts := l.starts.filter fun (_, s) => l.isFresh s }

/-- Forgets the place at this depth, which may not have had to be a key. -/
def dropStart (l : Lexer) : Result Lexer :=
  if (l.starts.lookup l.depth).any (·.required) then noToken "key"
  else .ok { l with starts := l.starts.filter fun (d, _) => d != l.depth }

/-- Keeps this place as one where a key may start. -/
def saveStart (l : Lexer) : Result Lexer :=
  if l.keyAllowed then do
    let required := l.inBlock && l.indent == l.cursor.column
    let l ← l.dropStart
    let start : KeyStart := ⟨l.count, required, l.cursor.index, l.cursor.line, l.cursor.column⟩
    return { l with starts := (l.depth, start) :: l.starts }
  else .ok l

/-- Closes the blocks that are indented more than a column. -/
def unwindFrom : List Int → (indent column : Int) → Lexer → Lexer
  | [], indent, column, l =>
    if column < indent then { l.push .blockEnd with indent := -1, outer := [] } else l
  | o :: os, indent, column, l =>
    if column < indent then
      unwindFrom os o column { l.push .blockEnd with indent := o, outer := os }
    else l

/-- Closes the blocks that end left of a column. Inside brackets indentation means nothing. -/
def unwind (l : Lexer) (column : Int) : Lexer :=
  if l.inBlock then unwindFrom l.outer l.indent column l else l

/-- Opens a block at a column, if it is indented more than the one around it. -/
def indentTo (l : Lexer) (column : Nat) : Option Lexer :=
  if l.indent < column then
    some { l with outer := l.indent :: l.outer, indent := column }
  else none

/-- Pushes the start of a block, if one opens here. -/
def openBlock (l : Lexer) (t : Token) : Lexer :=
  match l.indentTo l.cursor.column with
  | some l => l.push t
  | none => l

/-! ## Tokens -/

/-- What ends all blocks. -/
def closeAll (l : Lexer) : Result Lexer := do
  let l ← (l.unwind (-1)).dropStart
  return { l with keyAllowed := false }

def endStream (l : Lexer) : Result Lexer := do
  let l ← l.closeAll
  return { l.push .streamEnd with starts := [] }

def takeDirective (l : Lexer) : Result Lexer := do
  let l ← l.closeAll
  let (d, c) ← directive l.cursor
  return { l.push (.directive d) with cursor := c }

def takeBound (l : Lexer) (t : Token) : Result Lexer := do
  let l ← l.closeAll
  return l.take 3 t

def openFlow (l : Lexer) (t : Token) : Result Lexer := do
  let l ← l.saveStart
  return { l.take 1 t with depth := l.depth + 1, keyAllowed := true }

/-- A bracket that closes none is refused at once: no document has one. -/
def closeFlow (l : Lexer) (t : Token) : Result Lexer := do
  let l ← l.dropStart
  if l.inBlock then expected "the node content"
  else return { l.take 1 t with depth := l.depth - 1, keyAllowed := false }

def takeFlowEntry (l : Lexer) : Result Lexer := do
  let l ← l.dropStart
  return { l.take 1 .flowEntry with keyAllowed := true }

def takeBlockEntry (l : Lexer) : Result Lexer := do
  if l.inBlock && !l.keyAllowed then noToken "sequence entry"
  else
    let l := if l.inBlock then l.openBlock .blockSequenceStart else l
    let l ← l.dropStart
    return { l.take 1 .blockEntry with keyAllowed := true }

def takeKey (l : Lexer) : Result Lexer := do
  if l.inBlock && !l.keyAllowed then noToken "mapping key"
  else
    let l := if l.inBlock then l.openBlock .blockMappingStart else l
    let l ← l.dropStart
    return { l.take 1 .key with keyAllowed := l.inBlock }

/-- A colon: the place kept at this depth was the start of a key. -/
def takeKeyedValue (l : Lexer) (s : KeyStart) : Lexer :=
  let l := { l with starts := l.starts.filter fun (d, _) => d != l.depth }
  let opened := if l.inBlock then l.indentTo s.column else none
  let l := { opened.getD l with marks := ⟨s.token, opened.isSome⟩ :: l.marks }
  { l.take 1 .value with keyAllowed := false }

/-- A colon behind an explicit key or behind nothing. -/
def takeBareValue (l : Lexer) : Result Lexer := do
  if l.inBlock && !l.keyAllowed then noToken "mapping value"
  else
    let l := if l.inBlock then l.openBlock .blockMappingStart else l
    let l ← l.dropStart
    return { l.take 1 .value with keyAllowed := l.inBlock }

def takeValue (l : Lexer) : Result Lexer :=
  match l.starts.lookup l.depth with
  | some s => .ok (l.takeKeyedValue s)
  | none => l.takeBareValue

/-- A name, tag or scalar that may start a key. -/
def takeNode (l : Lexer) (read : Cursor → Result (Token × Cursor)) : Result Lexer := do
  let l ← l.saveStart
  let (t, c) ← read l.cursor
  return { l.push t with cursor := c, keyAllowed := false }

def takeQuoted (l : Lexer) (q : Quote) : Result Lexer :=
  l.takeNode fun c => do
    let (t, c) ← quotedScalar q c
    return (.scalar false t, c)

def takeBlockScalar (l : Lexer) (folded : Bool) : Result Lexer := do
  let l ← l.dropStart
  let (cs, c) ← blockScalar folded l.indent l.cursor
  return { l.push (.scalar false (.ofChars cs)) with cursor := c, keyAllowed := true }

def takePlain (l : Lexer) : Result Lexer := do
  let l ← l.saveStart
  let s := plainScalar (!l.inBlock) (l.indent + 1) l.cursor
  return { l.push (.scalar true (.ofChars s.text)) with
    cursor := s.after, keyAllowed := s.broken }

/-! ## The next token -/

/-- Passes spaces, comments and line breaks. -/
def toNextFrom : (fuel : Nat) → Lexer → Lexer
  | 0, l => l
  | fuel + 1, l =>
    let c := l.cursor.skipSpaces.skipComment
    if c.next?.any isBreak then
      toNextFrom fuel
        { l with cursor := c.lineBreak.2, keyAllowed := l.inBlock || l.keyAllowed }
    else { l with cursor := c }

/-- Passes what stands before the next token, a byte order mark at the very start too. -/
def toNext (l : Lexer) : Lexer :=
  let c := l.cursor
  let c := if c.index == 0 && c.isAt '\ufeff' then c.advance else c
  toNextFrom (c.rest.length + 1) { l with cursor := c }

/-- Whether a plain scalar starts with a character before another. -/
def startsPlain (flow : Bool) (ch : Char) (next : Option Char) : Bool :=
  !(" \t-?:,[]\x7b\x7d#&*!|>'\"%@`".toList.contains ch || isBreak ch) ||
    (!blankOrEnd next && (ch == '-' || (!flow && (ch == '?' || ch == ':'))))

/-- Takes the token that starts with a character. -/
def takeFrom (l : Lexer) (ch : Char) : Result Lexer :=
  let c := l.cursor
  let next := c.at? 1
  let apart := !l.inBlock || blankOrEnd next
  if ch == '%' && c.column == 0 then l.takeDirective
  else if c.column == 0 && c.isMark '-' then l.takeBound .documentStart
  else if c.column == 0 && c.isMark '.' then l.takeBound .documentEnd
  else if ch == '[' then l.openFlow .flowSequenceStart
  else if ch == '\x7b' then l.openFlow .flowMappingStart
  else if ch == ']' then l.closeFlow .flowSequenceEnd
  else if ch == '\x7d' then l.closeFlow .flowMappingEnd
  else if ch == ',' then l.takeFlowEntry
  else if ch == '-' && blankOrEnd next then l.takeBlockEntry
  else if ch == '?' && apart then l.takeKey
  else if ch == ':' && apart then l.takeValue
  else if ch == '*' then l.takeNode fun c => return (← anchorName c).map .alias id
  else if ch == '&' then l.takeNode fun c => return (← anchorName c).map .anchor id
  else if ch == '!' then l.takeNode fun c => return (← tag c).map .tag id
  else if ch == '|' && l.inBlock then l.takeBlockScalar false
  else if ch == '>' && l.inBlock then l.takeBlockScalar true
  else if ch == '\'' then l.takeQuoted .single
  else if ch == '"' then l.takeQuoted .double
  else if startsPlain (!l.inBlock) ch next then l.takePlain
  else noToken "token"

/-- Takes the next token, the end of the text too. -/
def takeNext (l : Lexer) : Result Lexer := do
  let l ← l.toNext.dropStale
  let l := l.unwind l.cursor.column
  match l.cursor.next? with
  | none => l.endStream
  | some ch => l.takeFrom ch

/-- The number of tokens that are known for certain: those before the first one that may still turn
out to be a key. -/
def known (l : Lexer) : Nat :=
  ((l.starts.filter fun (_, s) => l.isFresh s).map fun (_, s) => s.token).foldl min l.count

/-- Ends the tokens with a mark behind those that are known. -/
def breakOff (l : Lexer) (f : ValueFault) : Lexer :=
  { l with tokens := .broken f :: l.tokens.drop (l.count - l.known) }

/-- Takes the tokens that are left, up to one that breaks off. Each but the last takes a
character. -/
def run : (fuel : Nat) → Lexer → Result Lexer
  | 0, _ => noToken "token"
  | fuel + 1, l =>
    match l.takeNext with
    | .ok next => if next.tokens.head? = some .streamEnd then .ok next else run fuel next
    | .error (.value f) => .ok (l.breakOff f)
    | .error e => .error e

end Lexer

/-! ## Tokens of a text -/

/-- Puts the marks of keys in before the tokens that they belong to, counting from `count`. -/
def weave (marks : List KeyMark) : (count : Nat) → List Token → List Token
  | _, [] => []
  | count, t :: ts =>
    let here := match marks.find? (·.token == count) with
      | none => []
      | some m => if m.first then [.blockMappingStart, .key] else [.key]
    here ++ t :: weave marks (count + 1) ts

/-- The tokens of a text. -/
def tokens (text : List Char) : Result (List Token) := do
  match text.find? (!isAllowed ·) with
  | some c => throw (.malformed (.unprintable c))
  | none =>
    let l ← Lexer.run (text.length + 1) { cursor := { rest := text } }
    return weave l.marks 0 l.tokens.reverse

end FieldProgram.Yaml

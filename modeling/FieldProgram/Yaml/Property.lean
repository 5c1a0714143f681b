import FieldProgram.Numeral.Hexadecimal
import FieldProgram.Text.Utf8
import FieldProgram.Yaml.Cursor
import FieldProgram.Yaml.Token

/-!
# Names, tags and directives

Anchors and aliases have names of letters, digits, dashes and underscores. A tag is a handle and a
suffix, or written in full between angle brackets. A directive stands on a line of its own.
-/

namespace FieldProgram.Yaml

open Numeral

/-! ## Names -/

/-- Reads a name that is not empty. -/
def name (what : String) (c : Cursor) : Result (String × Cursor) :=
  match c.span isNameChar with
  | ([], _) => noToken what
  | (cs, c) => .ok (String.ofList cs, c)

/-- Reads the name of an anchor or an alias behind its sign. -/
def anchorName (c : Cursor) : Result (String × Cursor) := do
  let (s, c) ← name "anchor" c.advance
  if blankOrEnd c.next? || c.isAmong "?:,]\x7d%@`" then return (s, c) else noToken "anchor"

/-! ## Tags -/

/-- The characters of a tag beside letters and digits. -/
def isTagChar (c : Char) : Bool :=
  isNameChar c || ";/?:@&=+$,.!~*'()[]%".toList.contains c

/-- Reads octets in hexadecimal behind percent signs. -/
def percentOctets : (fuel : Nat) → Cursor → Result (List UInt8 × Cursor)
  | 0, c => .ok ([], c)
  | fuel + 1, c =>
    match c.rest with
    | '%' :: a :: b :: _ =>
      match hexValue? a, hexValue? b with
      | some m, some n => do
        let (bs, c) ← percentOctets fuel (c.forward 3)
        return (UInt8.ofNat (16 * m + n) :: bs, c)
      | _, _ => noToken "tag"
    | '%' :: _ => noToken "tag"
    | _ => .ok ([], c)

/-- Reads the characters of a tag onto those read. -/
def tagTextFrom : (fuel : Nat) → (read : List Char) → Cursor → Result (List Char × Cursor)
  | 0, read, c => .ok (read, c)
  | fuel + 1, read, c =>
    match c.next? with
    | none => .ok (read, c)
    | some ch =>
      if ch == '%' then do
        let (bs, c) ← percentOctets (c.rest.length + 1) c
        match Text.Utf8.decode bs with
        | .ok cs => tagTextFrom fuel (read ++ cs) c
        | .error _ => noToken "tag"
      else if isTagChar ch then
        let (cs, c) := c.span fun ch => isTagChar ch && ch != '%'
        tagTextFrom fuel (read ++ cs) c
      else .ok (read, c)

/-- Reads the text of a tag, which is not empty. -/
def tagText (c : Cursor) : Result (String × Cursor) := do
  if c.next?.any isTagChar then
    let (cs, c) ← tagTextFrom (c.rest.length + 1) [] c
    return (String.ofList cs, c)
  else noToken "tag"

/-- Reads a handle: an exclamation mark, or a name between two. -/
def tagHandle (c : Cursor) : Result (String × Cursor) :=
  if !c.isAt '!' then noToken "tag"
  else
    let c := c.advance
    if c.isAt ' ' then .ok ("!", c)
    else
      let (cs, c) := c.span isNameChar
      if c.isAt '!' then .ok (String.ofList ('!' :: cs ++ ['!']), c.advance) else noToken "tag"

/-- Whether an exclamation mark ends a handle of the tag whose characters are given. -/
def hasHandle (cs : List Char) : Bool := (cs.takeWhile fun ch => !spaceOrEnd (some ch)).contains '!'

/-- Reads a tag from its exclamation mark on. -/
def tag (c : Cursor) : Result (TagName × Cursor) := do
  let (t, c) ←
    if c.at? 1 == some '<' then do
      let (s, c) ← tagText (c.forward 2)
      if c.isAt '>' then pure (⟨none, s⟩, c.advance) else noToken "tag"
    else if blankOrEnd (c.at? 1) then pure (⟨none, "!"⟩, c.advance)
    else if hasHandle (c.rest.drop 1) then do
      let (h, c) ← tagHandle c
      let (s, c) ← tagText c
      pure (⟨some h, s⟩, c)
    else do
      let (s, c) ← tagText c.advance
      pure (⟨some "!", s⟩, c)
  if spaceOrEnd c.next? then return (t, c) else noToken "tag"

/-! ## Directives -/

/-- Reads a number of a version. -/
def versionNumber (c : Cursor) : Result (Nat × Cursor) :=
  let (cs, c) := c.span fun ch => (asciiDigit? ch).isSome
  match cs.filterMap asciiDigit? with
  | [] => noToken "directive"
  | ds =>
    match ofDecimalDigits ds with
    | .ok n => .ok (n, c)
    | .error limit => .error (.value (.digitLimit limit))

/-- Reads the version of the language. -/
def versionDirective (c : Cursor) : Result (Directive × Cursor) := do
  let (major, c) ← versionNumber c.skipSpaces
  if c.isAt '.' then
    let (_, c) ← versionNumber c.advance
    if spaceOrEnd c.next? then return (.version major, c) else noToken "directive"
  else noToken "directive"

/-- Reads a handle and what it stands for. -/
def handleDirective (c : Cursor) : Result (Directive × Cursor) := do
  let (h, c) ← tagHandle c.skipSpaces
  if c.isAt ' ' then
    let (s, c) ← tagText c.skipSpaces
    if spaceOrEnd c.next? then return (.handle h s, c) else noToken "directive"
  else noToken "directive"

/-- Reads a directive from its percent sign on, with its line. -/
def directive (c : Cursor) : Result (Directive × Cursor) := do
  let (s, c) ← name "directive" c.advance
  if !spaceOrEnd c.next? then noToken "directive"
  else
    let (d, c) ←
      if s = "YAML" then versionDirective c
      else if s = "TAG" then handleDirective c
      else pure (.other s, c.skip (!isBreak ·))
    let c := c.skipSpaces.skipComment
    if breakOrEnd c.next? then return (d, c.lineBreak.2) else noToken "directive"

end FieldProgram.Yaml

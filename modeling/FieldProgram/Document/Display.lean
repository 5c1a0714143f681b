import FieldProgram.Binary64.Text
import FieldProgram.Document.Basic
import FieldProgram.Text.Quoted

/-!
# Display of values

How values appear inside messages: texts quoted, lists in square brackets, mappings in braces,
and the words `None`, `True` and `False`. A display that would need an overlong integer fails, and
so does one that would go too deep into a nested value.
-/

namespace FieldProgram

open Numeral

namespace Display

/-- The display of a truth value. -/
def truth (b : Bool) : String := if b then "True" else "False"

/-- The display of a list, given those of its items. -/
def list (items : List String) : String := "[" ++ ", ".intercalate items ++ "]"

/-- Refuses to go into a collection that has parts where no level is left for them. -/
def enter (levels parts : Nat) : Except Limit Unit :=
  if levels = 0 ∧ parts ≠ 0 then .error .nesting else .ok ()

/-- Displays in braces. -/
def braced (parts : List String) : String := "\x7b" ++ ", ".intercalate parts ++ "\x7d"

/-- The display of a member, given those of its key and its value. -/
def member (key value : String) : String := key ++ ": " ++ value

end Display

namespace Document

mutual

/-- The display of a document, which may go into the given levels of parts. -/
def shown (levels : Nat) : Document → Except Limit String
  | .null => .ok "None"
  | .bool b => .ok (Display.truth b)
  | .int n => decimalText n
  | .float x => .ok x.text
  | .str t => .ok t.quoted
  | .list items => do
    Display.enter levels items.length
    return Display.list (← shownItems (levels - 1) items)
  | .map members => do
    Display.enter levels members.length
    return Display.braced (← shownMembers (levels - 1) members)

def shownItems (levels : Nat) : List Document → Except Limit (List String)
  | [] => .ok []
  | x :: xs => do
    let first ← shown levels x
    let rest ← shownItems levels xs
    return first :: rest

def shownMembers (levels : Nat) : List (Text × Document) → Except Limit (List String)
  | [] => .ok []
  | (k, v) :: ms => do
    let value ← shown levels v
    let rest ← shownMembers levels ms
    return Display.member k.quoted value :: rest

end

mutual

/-- The levels of parts that a document has. -/
def levels : Document → Nat
  | .list items => levelsOfItems items
  | .map members => levelsOfMembers members
  | _ => 0

def levelsOfItems : List Document → Nat
  | [] => 0
  | x :: xs => max (levels x + 1) (levelsOfItems xs)

def levelsOfMembers : List (Text × Document) → Nat
  | [] => 0
  | (_, v) :: ms => max (levels v + 1) (levelsOfMembers ms)

end

/-- The display of a document where there is room for all its levels. -/
def display (d : Document) : Except Limit String := d.shown d.levels

/-- The plain text of a document: its display, except that a text stands for itself. -/
def plain : Document → Except Limit Text
  | .str t => .ok t
  | d => d.display.map Text.ofString

end Document

end FieldProgram

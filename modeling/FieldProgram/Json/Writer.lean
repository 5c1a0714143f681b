import FieldProgram.Document.Display
import FieldProgram.Numeral.Hexadecimal

/-!
# Writing JSON

The text of a document in ASCII, either on one line or with one member or item a line, indented by
two. Members keep their order. An integer beyond the decimal limit has no text.
-/

namespace FieldProgram.Json

open Numeral

/-! ## Strings and numbers -/

/-- An escape with four hexadecimal digits. -/
def unitEscape (u : Nat) : List Char := '\\' :: 'u' :: hexDigitsPadded 4 u

/-- A character inside a string. -/
def writtenChar (c : Char) : List Char :=
  match c with
  | '"' => ['\\', '"']
  | '\\' => ['\\', '\\']
  | '\n' => ['\\', 'n']
  | '\r' => ['\\', 'r']
  | '\t' => ['\\', 't']
  | '\x08' => ['\\', 'b']
  | '\x0c' => ['\\', 'f']
  | c =>
    let n := c.toNat
    if 0x20 ≤ n ∧ n < 0x7f then [c]
    else if n < 0x10000 then unitEscape n
    else unitEscape (0xd800 + (n - 0x10000) / 0x400) ++ unitEscape (0xdc00 + (n - 0x10000) % 0x400)

/-- A code point inside a string. -/
def writtenCode : Code → List Char
  | .char c => writtenChar c
  | .lone half => unitEscape (Code.lone half).number

/-- A text as a string between double quotes. -/
def writtenString (t : Text) : List Char := '"' :: t.codes.flatMap writtenCode ++ ['"']

/-- Numbers are written as they are displayed, and what is not finite by name. -/
def numberStyle : Binary64.Style := ⟨-4, 16, 2, "Infinity", "NaN"⟩

/-! ## Layout -/

/-- How the parts of brackets are set apart. -/
inductive Layout
  /-- All on one line, a blank after each comma. -/
  | line
  /-- Each part on a line of its own, indented by two for each bracket around it. -/
  | indented
  deriving DecidableEq, Repr

/-- What stands between an opening bracket and its first part, at a depth. -/
def Layout.open : Layout → (depth : Nat) → List Char
  | .line, _ => []
  | .indented, depth => '\n' :: List.replicate (2 * depth) ' '

/-- What stands between two parts at a depth. -/
def Layout.between : Layout → (depth : Nat) → List Char
  | .line, _ => [',', ' ']
  | .indented, depth => ',' :: '\n' :: List.replicate (2 * depth) ' '

/-- The parts of a bracket at a depth, joined. -/
def Layout.parts (l : Layout) (depth : Nat) (opening closing : Char) (parts : List (List Char)) :
    List Char :=
  if parts = [] then [opening, closing]
  else opening :: l.open (depth + 1) ++ (l.between (depth + 1)).intercalate parts ++
    l.open depth ++ [closing]

mutual

/-- The text of a document inside `depth` brackets. -/
def written (l : Layout) (depth : Nat) : Document → Except Limit (List Char)
  | .null => .ok "null".toList
  | .bool true => .ok "true".toList
  | .bool false => .ok "false".toList
  | .int n => do return (← decimalText n).toList
  | .float x => .ok (x.textIn numberStyle).toList
  | .str t => .ok (writtenString t)
  | .list xs => do return l.parts depth '[' ']' (← writtenItems l (depth + 1) xs)
  | .map ms => do return l.parts depth '\x7b' '\x7d' (← writtenMembers l (depth + 1) ms)

def writtenItems (l : Layout) (depth : Nat) : List Document → Except Limit (List (List Char))
  | [] => .ok []
  | x :: xs => do
    let first ← written l depth x
    let rest ← writtenItems l depth xs
    return first :: rest

def writtenMembers (l : Layout) (depth : Nat) :
    List (Text × Document) → Except Limit (List (List Char))
  | [] => .ok []
  | (k, v) :: ms => do
    let value ← written l depth v
    let rest ← writtenMembers l depth ms
    return (writtenString k ++ ':' :: ' ' :: value) :: rest

end

/-- The text of a document. -/
def write (l : Layout) (d : Document) : Except Limit String := do
  return String.ofList (← written l 0 d)

end FieldProgram.Json

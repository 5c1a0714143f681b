/-!
# Limits of the interpreter

A conversion between an integer and decimal text is refused beyond a number of digits, and calls may
be made inside each other only so deep. `Limit` is what is met where one of the two is passed on the
way to a text.

`Room` is what is left of the depth of calls to the body of a function. Values are nested, and a
reader, a display and a converter make calls inside each other for the levels of a value, so how
deeply nested a value they take depends on the room. Calls that do not depend on the input are taken
to fit.
-/

namespace FieldProgram

/-- A limit that is met on the way to a text or to a number. -/
inductive Limit
  /-- Reading a decimal text of this many digits. -/
  | reading (count : Nat)
  /-- Writing an integer that would need too many digits. -/
  | writing
  /-- Showing a value that is nested too deeply. -/
  | nesting
  deriving DecidableEq, Repr

def Limit.message : Limit → String
  | .reading count =>
    "Exceeds the limit (4300 digits) for integer string conversion: value has " ++
      toString count ++ " digits; use sys.set_int_max_str_digits() to increase the limit"
  | .writing =>
    "Exceeds the limit (4300 digits) for integer string conversion; " ++
      "use sys.set_int_max_str_digits() to increase the limit"
  | .nesting => "maximum recursion depth exceeded while getting the repr of an object"

/-- What is left of the depth of calls to the body of a function, and what the libraries take of it
around the values that they are given. -/
structure Room where
  /-- The calls that may still be made inside each other. -/
  calls : Nat
  /-- The calls around the outermost bracket of a JSON text. -/
  aroundBracket : Nat := 4
  /-- The calls around the parts of the value at a place of a layout. -/
  aroundValue : (place : List String) → Nat := fun place => 2 * place.length + 3
  /-- The calls around the outermost collection of a YAML text. -/
  aroundCollection : Nat := 15
  /-- The calls for each collection of a YAML text. -/
  perCollection : Nat := 2
  /-- The calls around the mappings that a mapping of a YAML text merges. -/
  aroundMerge : Nat := 7
  /-- The calls around the text of a node of a YAML text. -/
  aroundText : Nat := 6

namespace Room

/-- The room of a function that is called from a body with this room. -/
def inner (room : Room) : Room := { room with calls := room.calls - 1 }

/-- The brackets of a JSON text that may be inside each other. -/
def brackets (room : Room) : Nat := room.calls - room.aroundBracket

/-- The levels of parts that the display of a value at a place of a layout may go into. -/
def shown (room : Room) (place : List String) : Nat := room.calls - room.aroundValue place

/-- The collections of a YAML text that may be inside each other. -/
def collections (room : Room) : Nat := (room.calls - room.aroundCollection) / room.perCollection

/-- The mappings that may be merged on the way to merging one. -/
def merges (room : Room) : Nat := room.calls - room.aroundMerge

/-- The nodes that may be looked at for the text of one. -/
def texts (room : Room) : Nat := room.calls - room.aroundText

/-- The room of a function that is called at the top of a program, of a thousand calls. -/
def standard : Room := { calls := 998 }

theorem brackets_inner (room : Room) : room.inner.brackets = room.brackets - 1 := by
  simp only [brackets, inner]
  omega

end Room

end FieldProgram

import FieldProgram.Reference.Basic

/-!
# The table of references

References in order. A later reference shadows an earlier one of the same name.
-/

namespace FieldProgram

open Numeral

structure ReferenceTable where
  references : List Reference := []
  deriving DecidableEq, Repr

/-- Why there is no reference at an index. -/
inductive IndexFault
  | outOfRange
  /-- The index has more than 64 bits. -/
  | tooWide
  deriving DecidableEq, Repr

def IndexFault.message : IndexFault → String
  | .outOfRange => "tuple index out of range"
  | .tooWide => "cannot fit 'int' into an index-sized integer"

/-- The fault of an index without a reference. -/
def IndexFault.ofIndex (index : Int) : IndexFault :=
  if -0x8000000000000000 ≤ index ∧ index < 0x8000000000000000 then .outOfRange else .tooWide

namespace ReferenceTable

def size (t : ReferenceTable) : Nat := t.references.length

/-- The last reference of a name. -/
def lookup (t : ReferenceTable) (name : Text) : Option Reference :=
  t.references.reverse.find? fun r => r.name == some name

/-- Adds a name behind the others unless it is among them. -/
def addName (names : List Text) (name : Text) : List Text :=
  if name ∈ names then names else names ++ [name]

/-- The names of references, each where it first occurs. -/
def names (t : ReferenceTable) : List Text :=
  (t.references.filterMap Reference.name).foldl addName []

/-- The reference at an index; a negative index counts from the end. -/
def get? (t : ReferenceTable) (index : Int) : Option Reference :=
  if 0 ≤ index then t.references[index.toNat]?
  else if -index ≤ t.size then t.references[(t.size + index).toNat]?
  else none

/-- The reference at an index, or why there is none. -/
def get (t : ReferenceTable) (index : Int) : Except IndexFault Reference :=
  match t.get? index with
  | some r => .ok r
  | none => .error (.ofIndex index)

def encode (t : ReferenceTable) : Document :=
  .map [("references", .list (t.references.map Reference.encode))]

def shown (t : ReferenceTable) : Except Limit String := do
  return "ReferenceManager(" ++ Display.list (← t.references.mapM Reference.shown) ++ ")"

end ReferenceTable

end FieldProgram

import FieldProgram.Document.Layer

/-!
# Schemas and their violations

A `Schema` states what a value may be: its types, the members it must have, schemas for its
members and items, a choice of texts. `Schema.violations` lists every place where a value departs
from its schema, and `Schema.inOrder` sorts the places.
-/

namespace FieldProgram

open Numeral

/-- A type that a schema may ask for. -/
inductive SchemaType
  | string
  | integer
  | boolean
  | null
  | array
  | object
  deriving DecidableEq, Repr

def SchemaType.word : SchemaType → String
  | .string => "string"
  | .integer => "integer"
  | .boolean => "boolean"
  | .null => "null"
  | .array => "array"
  | .object => "object"

/-- Whether a value is of the type. A floating-point number that equals an integer is one. -/
def SchemaType.admits {ν : Type} : SchemaType → Layer ν → Bool
  | .string, .str _ => true
  | .integer, .int _ => true
  | .integer, .float x => x.toInt?.isSome
  | .boolean, .bool _ => true
  | .null, .null => true
  | .array, .list _ => true
  | .object, .map _ => true
  | _, _ => false

/-- A requirement on a value and its parts. Each part of it binds only the values it speaks of:
members those of mappings, items those of lists, `nonEmpty` texts. -/
structure Schema where
  /-- The types allowed; none means any. -/
  types : List SchemaType := []
  /-- The members that must be present. -/
  required : List String := []
  members : List (String × Schema) := []
  items : Option Schema := none
  nonEmpty : Bool := false
  /-- The texts allowed, if the choice is limited. -/
  choices : Option (List String) := none
  /-- Whether members without a schema are refused. -/
  closed : Bool := false

/-- How a value departs from its schema. -/
inductive Breach (ν : Type)
  | wrongType (value : ν) (types : List SchemaType)
  | missing (name : String)
  | empty (value : ν)
  | notChosen (value : ν) (choices : List String)
  | unexpected (keys : List Label)

/-- A departure from a schema and the way to it from the root. -/
structure Violation (ν : Type) where
  path : List String
  breach : Breach ν

namespace Breach

/-- Keys sorted by their plain texts, displayed. -/
def sortedKeys (keys : List Label) : Except Limit (List String) := do
  let texts ← keys.mapM Label.plain
  let displays ← keys.mapM Label.shown
  return ((texts.zip displays).mergeSort fun a b => a.1.le b.1).map Prod.snd

/-- The wording of a breach, in which a value is shown with the given levels of its parts. -/
def message {ν : Type} [Layered ν] (levels : Nat) : Breach ν → Except Limit String
  | .wrongType value types => do
    let words := ", ".intercalate (types.map fun t => Text.quoted t.word)
    return (← Layered.shown levels value) ++ " is not of type " ++ words
  | .missing name => .ok (Text.quoted name ++ " is a required property")
  | .empty value => do return (← Layered.shown levels value) ++ " should be non-empty"
  | .notChosen value choices => do
    let words := choices.map fun (c : String) => Text.quoted c
    return (← Layered.shown levels value) ++ " is not one of " ++ Display.list words
  | .unexpected keys => do
    let verb := if keys.length = 1 then "was" else "were"
    return "Additional properties are not allowed (" ++ ", ".intercalate (← sortedKeys keys) ++
      " " ++ verb ++ " unexpected)"

end Breach

namespace Schema

variable {ν : Type} [Layered ν]

def typeBreaches (types : List SchemaType) (v : ν) : List (Breach ν) :=
  if types.isEmpty || types.any (·.admits (layer v)) then [] else [.wrongType v types]

def requiredBreaches (required : List String) (v : ν) : List (Breach ν) :=
  match layer v with
  | .map ms => (required.filter fun (n : String) => (Layer.member? n ms).isNone).map .missing
  | _ => []

def emptyBreaches (nonEmpty : Bool) (v : ν) : List (Breach ν) :=
  match layer v with
  | .str t => if nonEmpty && t.isEmpty then [.empty v] else []
  | _ => []

def choiceBreaches (choices : Option (List String)) (v : ν) : List (Breach ν) :=
  match choices with
  | none => []
  | some choices =>
    match layer v with
    | .str t => if choices.any (t == ·) then [] else [.notChosen v choices]
    | _ => [.notChosen v choices]

def closedBreaches (closed : Bool) (names : List String) (v : ν) : List (Breach ν) :=
  match layer v with
  | .map ms =>
    let extra := (ms.map Prod.fst).filter fun k => !(names.any fun n => k.isNamed n)
    if closed && !extra.isEmpty then [.unexpected extra] else []
  | _ => []

/-- The items of a list. -/
def itemsOf (v : ν) : List ν :=
  match layer v with
  | .list xs => xs
  | _ => []

/-- The member of a mapping under a name. -/
def memberOf? (name : String) (v : ν) : Option ν :=
  match layer v with
  | .map ms => Layer.member? name ms
  | _ => none

mutual

/-- The violations of a schema by the value at a path. -/
def violations (path : List String) (v : ν) : Schema → List (Violation ν)
  | ⟨types, required, members, items, nonEmpty, choices, closed⟩ =>
    (typeBreaches types v ++ requiredBreaches required v).map (⟨path, ·⟩) ++
      memberViolations path v members ++
      itemViolations path v items ++
      (emptyBreaches nonEmpty v ++ choiceBreaches choices v ++
        closedBreaches closed (members.map Prod.fst) v).map (⟨path, ·⟩)

def memberViolations (path : List String) (v : ν) : List (String × Schema) → List (Violation ν)
  | [] => []
  | (name, s) :: rest =>
    (match memberOf? name v with
      | some m => violations (path ++ [name]) m s
      | none => []) ++ memberViolations path v rest

def itemViolations (path : List String) (v : ν) : Option Schema → List (Violation ν)
  | none => []
  | some s =>
    ((itemsOf v).zipIdx.map fun (x, n) => violations (path ++ [toString n]) x s).flatten

end

/-- Paths compared part by part as texts. -/
def pathLe : List String → List String → Bool
  | [], _ => true
  | _ :: _, [] => false
  | a :: as, b :: bs => a < b || (a == b && pathLe as bs)

/-- Violations sorted by path; those at one path keep their order. -/
def inOrder {ν : Type} (vs : List (Violation ν)) : List (Violation ν) :=
  vs.mergeSort fun a b => pathLe a.path b.path

end Schema

namespace Violation

variable {ν : Type} [Layered ν]

/-- The place of a violation, or nothing at the root. -/
def place? {ν : Type} (v : Violation ν) : Option String :=
  let s := ".".intercalate v.path
  if s = "" then none else some s

/-- A line of a report, made in the given room. -/
def line (room : Room) (v : Violation ν) : Except Limit String := do
  return " - " ++ v.place?.getD "<root>" ++ ": " ++ (← v.breach.message (room.shown v.path))

/-- A report of violations under a title, one a line. -/
def report (room : Room) (title : String) (vs : List (Violation ν)) : Except Limit String := do
  return "\n".intercalate (title :: (← vs.mapM (line room)))

end Violation

end FieldProgram

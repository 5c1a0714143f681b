import FieldProgram.Address.Reader
import FieldProgram.Hint

/-!
# References

A reference is an expression for an address, with the state of the allocation pointer that it
counts from. It may have a program counter and a name.
-/

namespace FieldProgram

open Numeral

structure Reference where
  value : Text
  apTracking : ApTracking := {}
  pc : Option Int := none
  name : Option Text := none
  deriving DecidableEq, Repr

namespace Reference

/-- The address that the expression stands for, where it is of the form that addresses have. -/
def address (r : Reference) : Except Limit (Option Address) := Address.read r.value

/-- The type of the address. -/
def valueType (r : Reference) : Except Limit (Option TypeName) :=
  r.address.map fun a => a.map Address.valueType

/-! ## Documents -/

/-- The members of a reference but its name. -/
def unnamedMembers (r : Reference) : List (Text × Document) :=
  [("ap_tracking_data", r.apTracking.encode), ("pc", (r.pc.map Document.int).getD .null),
    ("value", .str r.value)]

/-- The member for a name, which is left out where there is none. -/
def nameMember : Option Text → List (Text × Document)
  | none => []
  | some name => [("name", .str name)]

def encode (r : Reference) : Document := .map (r.unnamedMembers ++ nameMember r.name)

def check : Document → Checked Reference :=
  Field.record "ReferenceRecord" fun ms =>
    ((Field.required "ap_tracking_data" ApTracking.check ms).both
      ((Field.optional "pc" none (Field.nullable Field.natural) ms).both
        ((Field.required "value" Field.string ms).both
          (Field.optional "name" none (Field.nullable Field.string) ms)))).map
      fun (apTracking, pc, value, name) => ⟨value, apTracking, pc, name⟩

/-- Gives a name to a reference that has none of its own. -/
def named (r : Reference) (name : Option Text) : Reference := { r with name := r.name.or name }

/-! ## Display -/

/-- The display of an optional value. -/
def shownOption {α : Type} (shown : α → Except Limit String) :
    Option α → Except Limit String
  | none => .ok "None"
  | some a => shown a

def shown (r : Reference) : Except Limit String := do
  let tracking ← r.apTracking.shown
  let pc ← shownOption decimalText r.pc
  let name ← shownOption (fun t => .ok t.quoted) r.name
  return "Reference(value=" ++ r.value.quoted ++ ", ap_tracking_data=" ++ tracking ++
    ", pc=" ++ pc ++ ", name=" ++ name ++ ")"

end Reference

end FieldProgram

import FieldProgram.Record.Field
import FieldProgram.Word.Basic

/-!
# Identifiers

An entry of the symbol table: a function, a constant, a label and so on. Of its record only the
program counter, the type and the value matter, though the record keeps the others. The value is
reduced into the field once the record has been read.
-/

namespace FieldProgram

/-- A named symbol. -/
structure Identifier where
  pc : Option Int := none
  type : Option Text := none
  value : Option Felt := none
  deriving DecidableEq, Repr

/-- A symbol whose value is not reduced yet. -/
structure IdentifierRecord where
  pc : Option Int
  type : Option Text
  value : Option Int
  deriving DecidableEq, Repr

def IdentifierRecord.check : Document → Checked IdentifierRecord :=
  Field.openRecord "IdentifierRecord" fun ms =>
    ((Field.optional "pc" none (Field.nullable Field.natural) ms).both
      ((Field.optional "type" none (Field.nullable Field.string) ms).both
        (Field.optional "value" none (Field.nullable Field.literal) ms))).map
      fun (pc, type, value) => ⟨pc, type, value⟩

/-- The symbol with its value reduced into the field, the modulus given as a value. -/
def IdentifierRecord.reduce (r : IdentifierRecord) (prime : Document) :
    Except WordError Identifier :=
  match r.value with
  | none => .ok { pc := r.pc, type := r.type }
  | some n => do
    let value ← Felt.reduceValues (.int n) prime
    return { pc := r.pc, type := r.type, value := value }

namespace Identifier

/-- A member that is left out where there is no value. -/
def present (name : Text) : Option Document → List (Text × Document)
  | none => []
  | some d => [(name, d)]

def encode (i : Identifier) : Document :=
  .map (present "pc" (i.pc.map .int) ++ present "type" (i.type.map .str) ++
    present "value" (i.value.map fun f => .int f.value))

/-- The value of a constant. -/
def constant? (i : Identifier) : Option Felt :=
  if i.type = some ("const" : Text) then i.value else none

end Identifier

end FieldProgram

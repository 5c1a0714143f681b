import FieldProgram.Identifier
import FieldProgram.Reference.Table
import FieldProgram.Word.Codec

/-!
# Programs

A compiled program: words of code and data indexed by program counter, hints by program counter,
references, and the symbol table. `Program.encode` writes it as an artifact.
-/

namespace FieldProgram

open Numeral

structure Program where
  prime : Int
  builtins : List Text := []
  data : List Word := []
  /-- The program counter of the entry point, where there is one. -/
  main : Option Int := none
  /-- Hints by program counter, each program counter once. -/
  hints : List (Int × List Hint) := []
  references : ReferenceTable := {}
  /-- Symbols by name, each name once. -/
  identifiers : List (Text × Identifier) := []
  deriving DecidableEq, Repr

namespace Program

/-! ## Queries -/

def dataLength (p : Program) : Nat := p.data.length

def identifier? (p : Program) (name : Text) : Option Identifier := p.identifiers.lookup name

/-- The hints at a program counter. -/
def hintsAt (p : Program) (pc : Int) : List Hint := (p.hints.lookup pc).getD []

/-- The constants with their values. -/
def constants (p : Program) : List (Text × Felt) :=
  p.identifiers.filterMap fun (name, i) => i.constant?.map (name, ·)

/-! ## The artifact of a program -/

/-- The hints of one program counter, under its decimal text. -/
def encodeHints : Int × List Hint → Except Limit (Text × Document)
  | (pc, hints) => do
    let key ← decimalText pc
    return (key, .list (hints.map Hint.encode))

def encode (p : Program) : Except Limit Document := do
  let hints ← p.hints.mapM encodeHints
  return .map [
    ("prime", .str (hexText p.prime)),
    ("builtins", .list (p.builtins.map .str)),
    ("data", .list (p.data.map Word.encode)),
    ("identifiers", .map (p.identifiers.map fun (name, i) => (name, i.encode))),
    ("hints", .map hints),
    ("reference_manager", p.references.encode)]

/-! ## Agreement -/

/-- Whether two programs agree, their symbols, hints by program counter and names of references in
hints in any order. -/
def agree (p q : Program) : Bool :=
  p.builtins == q.builtins && p.prime == q.prime && p.data == q.data && p.main == q.main &&
    Entries.agreeBy (fun a b => a.length == b.length && (a.zip b).all fun (x, y) => x.agree y)
      p.hints q.hints &&
    p.references == q.references && Entries.agreeBy (· == ·) p.identifiers q.identifiers

end Program

end FieldProgram

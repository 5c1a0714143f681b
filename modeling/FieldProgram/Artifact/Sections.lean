import FieldProgram.Artifact.Layout
import FieldProgram.Program.Basic

/-!
# The sections of an artifact

Each section is read on its own from its value: the prime, the data, the identifiers, the hints and
the references. References without a name take one from the hints, and the hints may name only
references that there are.
-/

namespace FieldProgram.Artifact

open Numeral

/-- A member of a document, null where there is none. -/
def part (name : String) (d : Document) : Document :=
  (d.member? name).getD .null

/-- The result of a check of a record, or the error that its faults make. -/
def checked {α : Type} (error : List RecordFault → LoadError) (c : Checked α) :
    Except LoadFailure α :=
  match c.toExcept with
  | .error faults => (error faults).fail
  | .ok a => .ok a

/-! ## Prime and data -/

def prime (d : Document) : Except LoadFailure Int :=
  match d.integer with
  | .error fault => (LoadError.badPrime fault).fail
  | .ok p => if p ≤ 1 then (LoadError.primeTooSmall p).fail else .ok p

/-- Refuses a prime other than the one expected, if any is. -/
def checkPrime (prime : Int) : Option Int → Except LoadFailure Unit
  | none => .ok ()
  | some expected =>
    if expected = prime then .ok () else (LoadError.primeMismatch expected prime).fail

/-- The words of data, from the given index on. -/
def wordsFrom (prime : Int) : (index : Nat) → List Document → Except LoadFailure (List Word)
  | _, [] => .ok []
  | index, d :: ds =>
    match Word.decode d prime with
    | .error e => (LoadError.badWord index e).fail
    | .ok w => do
      let ws ← wordsFrom prime (index + 1) ds
      return w :: ws

def words (prime : Int) (d : Document) : Except LoadFailure (List Word) :=
  wordsFrom prime 0 (d.items?.getD [])

/-! ## Identifiers -/

/-- The symbol that a record describes, the modulus given as a value. -/
def identifier (prime : Document) (name : Option Text) (d : Document) :
    Except LoadFailure Identifier := do
  let r ← checked (.badIdentifier name) (IdentifierRecord.check d)
  (r.reduce prime).mapError .word

def namedIdentifier (prime : Int) : Text × Document → Except LoadFailure (Text × Identifier)
  | (name, d) => (identifier (.int prime) (some name) d).map (name, ·)

def identifiers (prime : Int) (d : Document) : Except LoadFailure (List (Text × Identifier)) :=
  (d.members?.getD []).mapM (namedIdentifier prime)

/-! ## Hints -/

/-- The program counter that a key of hints stands for. -/
def hintKey (key : Text) : Except LoadFailure Int :=
  match key.chars?.bind (·.mapM asciiDigit?) with
  | none => (LoadError.badHintKey key).fail
  | some [] => (LoadError.badHintKey key).fail
  | some ds => ((ofDecimalDigits ds).mapError .limit).map fun n => (n : Int)

/-- The hint that a record describes. -/
def hint (place : HintPlace) (d : Document) : Except LoadFailure Hint :=
  checked (.badHint place) (Hint.check d)

/-- The hints of one program counter, from the given position on. -/
def hintsFrom (pc : Int) : (position : Nat) → List Document → Except LoadFailure (List Hint)
  | _, [] => .ok []
  | position, d :: ds => do
    let h ← checked (.badListedHint pc position) (Hint.check d)
    let hs ← hintsFrom pc (position + 1) ds
    return h :: hs

/-- The hints by program counter, given the program counters of the members before. A member
without hints only keeps others from standing for its program counter. -/
def hintMembers : (seen : List Int) → List (Text × Document) →
    Except LoadFailure (List (Int × List Hint))
  | _, [] => .ok []
  | seen, (key, d) :: ms => do
    let pc ← hintKey key
    if pc ∈ seen then (LoadError.repeatedHintKey key pc).fail
    else
      match d with
      | .list [] => hintMembers (pc :: seen) ms
      | .list ds => do
        let hs ← hintsFrom pc 0 ds
        let rest ← hintMembers (pc :: seen) ms
        return (pc, hs) :: rest
      | _ => (LoadError.notHintList key).fail

def hints (d : Document) : Except LoadFailure (List (Int × List Hint)) :=
  hintMembers [] (d.members?.getD [])

/-! ## References -/

/-- The names that hints give to references, in the order of the hints, by index. -/
def namings (hints : List (Int × List Hint)) : List (Int × Text) :=
  hints.flatMap fun (_, hs) => hs.flatMap fun h => h.referenceIds.map fun (name, index) =>
    (index, name)

/-- The reference that a record describes, with its index if known and a name for a record without
one. -/
def reference (index : Option Int) (name : Option Text) (d : Document) :
    Except LoadFailure Reference :=
  (checked (.badReference index) (Reference.check d)).map (·.named name)

/-- The references from the given index on. The first name for an index counts. -/
def referencesFrom (names : List (Int × Text)) :
    (index : Nat) → List Document → Except LoadFailure (List Reference)
  | _, [] => .ok []
  | index, d :: ds => do
    let r ← checked (.badListedReference index) (Reference.check d)
    let rs ← referencesFrom names (index + 1) ds
    return r.named (names.lookup (index : Int)) :: rs

def references (names : List (Int × Text)) (d : Document) : Except LoadFailure ReferenceTable :=
  match d with
  | .map ms =>
    match ms.lookup ("references" : Text) with
    | some (.list ds) => (referencesFrom names 0 ds).map ReferenceTable.mk
    | _ => LoadError.notReferenceList.fail
  | _ => LoadError.notReferenceTable.fail

/-- The first name in a hint for a reference beyond `count`. -/
def danglingIn? (count : Nat) (pc : Int) (position : Nat) (h : Hint) : Option LoadError :=
  (h.referenceIds.find? fun id => (count : Int) ≤ id.2).map fun (name, index) =>
    .danglingReference pc position name index count

/-- The first name in hints for a reference beyond `count`. -/
def dangling? (count : Nat) (hints : List (Int × List Hint)) : Option LoadError :=
  hints.findSome? fun (pc, hs) => hs.zipIdx.findSome? fun (h, n) => danglingIn? count pc n h

/-- Refuses hints that name references beyond `count`. -/
def checkReferenceIds (count : Nat) (hints : List (Int × List Hint)) : Except LoadFailure Unit :=
  match dangling? count hints with
  | none => .ok ()
  | some e => e.fail

/-! ## Builtins and entry point -/

/-- The text of a document that is one. -/
def text? : Document → Option Text
  | .str t => some t
  | _ => none

def builtins (d : Document) : List Text := (d.items?.getD []).filterMap text?

/-- The name of an entry point in the symbol table. -/
def entryName (entrypoint : Text) : Text := "__main__." ++ entrypoint

/-- The program counter of an entry point. -/
def entryPc? (symbols : List (Text × Identifier)) (entrypoint : Text) : Option Int :=
  (symbols.lookup (entryName entrypoint)).bind Identifier.pc

end FieldProgram.Artifact

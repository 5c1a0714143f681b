import FieldProgram.Artifact.Sections
import FieldProgram.Log

/-!
# Loading a program from a document

The sections are read one after the other, and the first that is at fault ends the loading. What
has been read is noted in the log.
-/

namespace FieldProgram.Artifact

open Numeral Log

/-- Takes note of what was read. -/
def note (level : Level) (message : Text) : Run LoadFailure Unit :=
  Run.note level .loader message

/-- Notes an entry point that has no program counter. -/
def noteEntry (symbols : List (Text × Identifier)) (entrypoint : Text) :
    Run LoadFailure Unit :=
  let name := entryName entrypoint
  match symbols.lookup name with
  | none => note .debug ("Entrypoint " ++ name ++ " not found; program has no main")
  | some { pc := none, .. } =>
    note .debug ("Entrypoint " ++ name ++ " has no pc; program has no main")
  | some _ => pure ()

/-- The summary of a loaded program for the log. -/
def loadedMessage (p : Program) : String :=
  "Loaded program: " ++ toString p.dataLength ++ " word(s), " ++ toString p.identifiers.length ++
    " identifier(s), hints at " ++ toString p.hints.length ++ " pc(s), " ++
    toString p.references.size ++ " reference(s), main=" ++
    match p.main with
    | none => "None"
    | some pc => shortDecimal pc

/-- The program of a document, for an entry point and perhaps an expected prime, made in the given
room. -/
def load (room : Room) (d : Document) (entrypoint : Text) (expected : Option Int) :
    Run LoadFailure Program := do
  Run.ofExcept (checkLayout room.inner d)
  let prime ← Run.ofExcept (prime (part "prime" d))
  note .debug ("Artifact prime is " ++ hexText prime)
  Run.ofExcept (checkPrime prime expected)
  let data ← Run.ofExcept (words prime (part "data" d))
  note .debug ("Decoded " ++ toString data.length ++ " data word(s)")
  let identifiers ← Run.ofExcept (identifiers prime (part "identifiers" d))
  note .debug ("Parsed " ++ toString identifiers.length ++ " identifier(s)")
  let hints ← Run.ofExcept (hints (part "hints" d))
  note .debug ("Parsed hints for " ++ toString hints.length ++ " pc(s)")
  let references ← Run.ofExcept (references (namings hints) (part "reference_manager" d))
  Run.ofExcept (checkReferenceIds references.size hints)
  noteEntry identifiers entrypoint
  let program : Program := {
    prime
    builtins := builtins (part "builtins" d)
    data
    main := entryPc? identifiers entrypoint
    hints
    references
    identifiers }
  note .info (loadedMessage program)
  return program

end FieldProgram.Artifact

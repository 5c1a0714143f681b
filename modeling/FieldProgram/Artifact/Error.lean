import FieldProgram.Json.Error
import FieldProgram.Record.Fault
import FieldProgram.Schema.Basic
import FieldProgram.Text.Octets
import FieldProgram.Word.Basic

/-!
# Why a program cannot be loaded

Each way of failing is a constructor; `area` groups them, `field` says where in the artifact the
fault is, and `message` words it. A message that would need an overlong integer or a value nested
too deeply cannot be worded, and then the limit is what fails.
-/

namespace FieldProgram

open Numeral

/-- Where a record of a hint stands: its program counter and its position there, if known. -/
structure HintPlace where
  pc : Option Int
  position : Option Int
  deriving DecidableEq, Repr

/-- Why an artifact does not load. -/
inductive LoadError
  | fileNotFound (path : String)
  | isDirectory (path : String)
  | undecodable (e : Text.DecodeError)
  | notJson (text : List Code) (e : Json.ReadError)
  /-- The artifact breaks its layout, first at `first`, as found in the given room. -/
  | layout (room : Room) (first : Violation Document) (rest : List (Violation Document))
  | badPrime (fault : LiteralFault)
  | primeTooSmall (prime : Int)
  | primeMismatch (expected actual : Int)
  | badWord (index : Nat) (e : WordError)
  | badIdentifier (name : Option Text) (faults : List RecordFault)
  | badHintKey (key : Text)
  | repeatedHintKey (key : Text) (pc : Int)
  | notHintList (key : Text)
  | badHint (place : HintPlace) (faults : List RecordFault)
  /-- A record in the list of hints of a program counter. -/
  | badListedHint (pc : Int) (position : Nat) (faults : List RecordFault)
  /-- A hint names a reference beyond the last of `count`. -/
  | danglingReference (pc : Int) (position : Nat) (name : Text) (index : Int) (count : Nat)
  | notReferenceTable
  | notReferenceList
  | badReference (index : Option Int) (faults : List RecordFault)
  /-- A record in the list of references. -/
  | badListedReference (index : Nat) (faults : List RecordFault)

/-- The part of an artifact that is at fault. -/
inductive LoadError.Area
  | malformed
  | identifier
  | hint
  | reference
  | primeMismatch
  deriving DecidableEq, Repr

/-- A fault of the artifact, a word that cannot be made, or a limit that is met. -/
inductive LoadFailure
  | rejected (e : LoadError)
  | word (e : WordError)
  | limit (l : Limit)

namespace HintPlace

/-- The place of a hint as a field of the artifact. -/
def field (p : HintPlace) : Except Limit String :=
  match p.pc, p.position with
  | none, _ => .ok "hints"
  | some pc, none => do return "hints." ++ (← decimalText pc)
  | some pc, some n => do return "hints." ++ (← decimalText pc) ++ "[" ++ (← decimalText n) ++ "]"

end HintPlace

namespace LoadError

def area : LoadError → Area
  | primeMismatch .. => .primeMismatch
  | badIdentifier .. => .identifier
  | badHintKey _ => .hint
  | repeatedHintKey .. => .hint
  | notHintList _ => .hint
  | badHint .. => .hint
  | badListedHint .. => .hint
  | danglingReference .. => .hint
  | notReferenceTable => .reference
  | notReferenceList => .reference
  | badReference .. => .reference
  | badListedReference .. => .reference
  | _ => .malformed

/-- The field of an identifier. One without a name is placed in the table as a whole. -/
def identifierField : Option Text → Text
  | none => "identifiers"
  | some name => if name.isEmpty then "identifiers" else "identifiers." ++ name

/-- The field of a hint in a list. A position there is a count, which is short. -/
def listedHintField (pc : Int) (position : Nat) : Except Limit String := do
  return "hints." ++ (← decimalText pc) ++ "[" ++ toString position ++ "]"

/-- The part of the artifact that is at fault, where it is a part. -/
def field : LoadError → Except Limit (Option Text)
  | layout _ first _ => .ok (first.place?.map Text.ofString)
  | badPrime _ => .ok (some "prime")
  | primeTooSmall _ => .ok (some "prime")
  | primeMismatch .. => .ok (some "prime")
  | badWord index _ => .ok (some ("data[" ++ toString index ++ "]"))
  | badIdentifier name _ => .ok (some (identifierField name))
  | badHintKey key => .ok (some ("hints." ++ key))
  | repeatedHintKey key _ => .ok (some ("hints." ++ key))
  | notHintList key => .ok (some ("hints." ++ key))
  | badHint place _ => place.field.map fun s => some s
  | badListedHint pc position _ => (listedHintField pc position).map fun s => some s
  | danglingReference pc position _ _ _ => do
    return some ((← listedHintField pc position) ++ ".flow_tracking_data.reference_ids")
  | notReferenceTable => .ok (some "reference_manager")
  | notReferenceList => .ok (some "reference_manager.references")
  | badReference index _ => do
    let index ← (index.mapM decimalText)
    return some ("reference_manager.references[" ++ index.getD "None" ++ "]")
  | badListedReference index _ =>
    .ok (some ("reference_manager.references[" ++ toString index ++ "]"))
  | _ => .ok none

/-- What is wrong, apart from where. -/
def detail : LoadError → Except Limit Text
  | fileNotFound path => .ok ("Artifact file not found: " ++ path)
  | isDirectory path =>
    .ok ("Failed to read artifact " ++ path ++ ": [Errno 21] Is a directory: " ++ Text.quoted path)
  | undecodable e => .ok ("Artifact is not valid JSON: " ++ e.message)
  | notJson text e => .ok ("Artifact is not valid JSON: " ++ e.message text)
  | layout room first rest =>
    (Violation.report room "Artifact validation failed:" (first :: rest)).map Text.ofString
  | badPrime fault => .ok fault.message
  | primeTooSmall prime => do
    return "prime must be greater than 1, got " ++ (← decimalText prime)
  | primeMismatch expected actual =>
    .ok ("Artifact prime " ++ hexText actual ++ " does not match expected prime " ++
      hexText expected)
  | badWord _ e => e.text.map Text.ofString
  | badIdentifier _ faults => .ok (RecordFault.describe faults)
  | badHintKey key =>
    .ok ("hint key must be a non-negative integer pc, got " ++ key.quoted)
  | repeatedHintKey _ pc => do return "duplicate hints for pc " ++ (← decimalText pc)
  | notHintList _ => .ok "expected a list of hints"
  | badHint _ faults => .ok (RecordFault.describe faults)
  | badListedHint _ _ faults => .ok (RecordFault.describe faults)
  | danglingReference _ _ name index count => do
    return "reference '" ++ name ++ "' points at index " ++ (← decimalText index) ++
      " but only " ++ toString count ++ " reference(s) exist"
  | notReferenceTable => .ok "expected an object"
  | notReferenceList => .ok "expected a list"
  | badReference _ faults => .ok (RecordFault.describe faults)
  | badListedReference _ faults => .ok (RecordFault.describe faults)

/-- What is wrong, behind the part that is at fault. -/
def message (e : LoadError) : Except Limit Text := do
  let detail ← e.detail
  match ← e.field with
  | some field => return field ++ ": " ++ detail
  | none => return detail

/-- Fails with an error, or with the limit that is met where the error cannot be worded. -/
def fail {α : Type} (e : LoadError) : Except LoadFailure α :=
  match e.message with
  | .ok _ => .error (.rejected e)
  | .error l => .error (.limit l)

end LoadError

end FieldProgram

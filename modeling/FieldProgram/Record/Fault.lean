import FieldProgram.Document.Integer

/-!
# Faults of records

A record is a mapping whose members are read into the fields of a type. `Checked` holds either the
result or all the faults found, in the order of the fields, and at least one. Combining two checks
keeps the faults of both.
-/

namespace FieldProgram

/-- What is wrong with a member of a record. -/
inductive RecordBreach
  | missing
  | notInteger
  | notString
  /-- A half of a surrogate pair in a text that must have characters only. -/
  | notCharacters
  | notList
  | notDictionary
  | notRecord (name : String)
  | negative
  | emptyText
  | notBoolean
  | unreadableBoolean
  | literal (fault : LiteralFault)
  | negativeReference (name : Text)
  | primeTooSmall
  deriving DecidableEq, Repr

def RecordBreach.message : RecordBreach → String
  | .missing => "Field required"
  | .notInteger => "Input should be a valid integer"
  | .notString => "Input should be a valid string"
  | .notCharacters =>
    "Input should be a valid string, unable to parse raw data as a unicode string"
  | .notList => "Input should be a valid list"
  | .notDictionary => "Input should be a valid dictionary"
  | .notRecord name => "Input should be a valid dictionary or instance of " ++ name
  | .negative => "Input should be greater than or equal to 0"
  | .emptyText => "String should have at least 1 character"
  | .notBoolean => "Input should be a valid boolean"
  | .unreadableBoolean => "Input should be a valid boolean, unable to interpret input"
  | .literal fault => "Value error, " ++ fault.message
  | .negativeReference name =>
    "Value error, reference id for '" ++ name.replaced ++ "' must be non-negative"
  | .primeTooSmall => "Value error, expected_prime must be greater than 1"

/-- A fault and the way to it inside its record. -/
structure RecordFault where
  path : List String
  breach : RecordBreach
  deriving DecidableEq, Repr

/-- The place of a fault as text. -/
def RecordFault.place (f : RecordFault) : String := ".".intercalate f.path

/-- The faults of a record in one line. -/
def RecordFault.describe (faults : List RecordFault) : String :=
  "; ".intercalate (faults.map fun f =>
    (if f.place = "" then "<record>" else f.place) ++ ": " ++ f.breach.message)

/-- The result of a check, or the faults it found. -/
inductive Checked (α : Type)
  | valid (a : α)
  | faulty (first : RecordFault) (rest : List RecordFault)
  deriving Repr

namespace Checked

variable {α β : Type}

/-- A fault at the value itself. -/
def fault (breach : RecordBreach) : Checked α := .faulty ⟨[], breach⟩ []

/-- The faults found. -/
def faults : Checked α → List RecordFault
  | .valid _ => []
  | .faulty f fs => f :: fs

def map (g : α → β) : Checked α → Checked β
  | .valid a => .valid (g a)
  | .faulty f fs => .faulty f fs

/-- Both results, or the faults of both checks in order. -/
def both : Checked α → Checked β → Checked (α × β)
  | .valid a, .valid b => .valid (a, b)
  | .valid _, .faulty f fs => .faulty f fs
  | .faulty f fs, c => .faulty f (fs ++ c.faults)

/-- All results, or the faults of all checks in order. -/
def all : List (Checked α) → Checked (List α)
  | [] => .valid []
  | c :: cs => (c.both (all cs)).map fun (a, as) => a :: as

/-- A further check of a result, made only where there is one. -/
def ensure (c : Checked α) (check : α → Option RecordBreach) : Checked α :=
  match c with
  | .valid a =>
    match check a with
    | none => .valid a
    | some breach => fault breach
  | c => c

/-- Puts the faults under a member. -/
def under (name : String) : Checked α → Checked α
  | .valid a => .valid a
  | .faulty f fs =>
    let moved (f : RecordFault) : RecordFault := ⟨name :: f.path, f.breach⟩
    .faulty (moved f) (fs.map moved)

def toExcept : Checked α → Except (List RecordFault) α
  | .valid a => .ok a
  | .faulty f fs => .error (f :: fs)

@[simp] theorem faults_both (a : Checked α) (b : Checked β) :
    (a.both b).faults = a.faults ++ b.faults := by
  cases a <;> cases b <;> simp [both, faults]

@[simp] theorem faults_map (g : α → β) (c : Checked α) : (c.map g).faults = c.faults := by
  cases c <;> rfl

end Checked

end FieldProgram

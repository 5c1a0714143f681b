import FieldProgram.Record.Fault

/-!
# Reading the fields of records

Small readers of values, and readers of members that may or must be present.
-/

namespace FieldProgram.Field

variable {ν α : Type} [Layered ν]

/-! ## Values -/

/-- An integer, not a truth value or a text. -/
def integer (v : ν) : Checked Int :=
  match layer v with
  | .int n => .valid n
  | _ => .fault .notInteger

/-- An integer that is not negative. -/
def natural (v : ν) : Checked Int :=
  (integer v).ensure fun n => if n < 0 then some .negative else none

def string (v : ν) : Checked Text :=
  match layer v with
  | .str t => .valid t
  | _ => .fault .notString

/-- A text of characters, at least one. -/
def nonEmptyString (v : ν) : Checked Text :=
  (string v).ensure fun t =>
    if t.chars?.isNone then some .notCharacters else if t.isEmpty then some .emptyText else none

/-- An integer literal. -/
def literal (v : ν) : Checked Int :=
  match (layer v).integer with
  | .ok n => .valid n
  | .error fault => .fault (.literal fault)

/-- The words for true. -/
def trueWords : List String := ["1", "on", "t", "true", "y", "yes"]

/-- The words for false. -/
def falseWords : List String := ["0", "off", "f", "false", "n", "no"]

/-- The least integer of 64 bits; its negation is the first above them. -/
def leastInt64 : Int := -0x8000000000000000

/-- A truth value of an integer: one or zero. Integers of more than 64 bits are not looked at. -/
def truthOfInt (n : Int) : Checked Bool :=
  if n = 0 then .valid false
  else if n = 1 then .valid true
  else if n < leastInt64 ∨ -leastInt64 ≤ n then .fault .notBoolean
  else .fault .unreadableBoolean

/-- A truth value of a word in any case. -/
def truthOfWord (word : String) : Checked Bool :=
  if trueWords.contains word.toLower then .valid true
  else if falseWords.contains word.toLower then .valid false
  else .fault .unreadableBoolean

/-- A truth value, also as a number or as a word. -/
def truth (v : ν) : Checked Bool :=
  match layer v with
  | .bool b => .valid b
  | .int n => truthOfInt n
  | .float x =>
    match x.toInt? with
    | some n => if n = leastInt64 then .fault .notBoolean else truthOfInt n
    | none => .fault .notBoolean
  | .str t =>
    match t.string? with
    | some word => truthOfWord word
    | none => .fault .notCharacters
  | _ => .fault .notBoolean

/-- A value that may be null. -/
def nullable (read : ν → Checked α) (v : ν) : Checked (Option α) :=
  match layer v with
  | .null => .valid none
  | _ => (read v).map some

/-- A list, each item read; faults are placed by index. -/
def listOf (read : ν → Checked α) (v : ν) : Checked (List α) :=
  match layer v with
  | .list xs => .all (xs.zipIdx.map fun (x, n) => (read x).under (toString n))
  | _ => .fault .notList

/-- A mapping from texts, each value read; faults are placed by key. -/
def mapOf (read : Document → Checked α) : Document → Checked (List (Text × α))
  | .map ms => .all (ms.map fun (k, v) => ((read v).under k.replaced).map (k, ·))
  | _ => .fault .notDictionary

/-- A record: a mapping whose members are read together. -/
def record (name : String) (read : List (Label × ν) → Checked α) (v : ν) : Checked α :=
  match layer v with
  | .map ms => read ms
  | _ => .fault (.notRecord name)

/-! ## Members -/

/-- A member that must be present. -/
def required (name : String) (read : ν → Checked α) (ms : List (Label × ν)) : Checked α :=
  match Layer.member? name ms with
  | some v => (read v).under name
  | none => (Checked.fault .missing).under name

/-- A member that has a default. -/
def optional (name : String) (default : α) (read : ν → Checked α) (ms : List (Label × ν)) :
    Checked α :=
  match Layer.member? name ms with
  | some v => (read v).under name
  | none => .valid default

/-- Whether all keys are texts of characters. -/
def areKeysCharacters (ms : List (Label × ν)) : Bool :=
  ms.all fun m =>
    match m.1 with
    | .text t => t.chars?.isSome
    | .other .. => true

/-- A record that keeps members without a field of their own, so that the keys of all its members
must be texts of characters. -/
def openRecord (name : String) (read : List (Label × ν) → Checked α) : ν → Checked α :=
  record name fun ms => if areKeysCharacters ms then read ms else .fault .notCharacters

end FieldProgram.Field

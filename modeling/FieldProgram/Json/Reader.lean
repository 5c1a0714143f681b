import FieldProgram.Entries
import FieldProgram.Json.Token

/-!
# Reading JSON

A recursive descent over the code points. What happens to a key that stands twice in one object is
a parameter: `KeyPolicy.rejectRepeated` refuses it when the object closes, and
`KeyPolicy.keepLast` keeps the first place and the last value. Beyond the usual grammar, `NaN`,
`Infinity` and `-Infinity` are numbers.

Each bracket that is open takes a call, and the calls that a reader has are few. The `levels` of a
function are the calls that are left to it, of which some values and most errors take one or more.
-/

namespace FieldProgram.Json

/-- What is done about a key that stands twice in one object. -/
inductive KeyPolicy
  | rejectRepeated
  | keepLast
  deriving DecidableEq, Repr

/-- The mapping of the members of an object that closes where `levels` more brackets might open.
Refusing repeated keys takes a call for each object. -/
def KeyPolicy.close (policy : KeyPolicy) (levels : Nat) (members : List (Text × Document)) :
    Except ReadError Document :=
  match policy with
  | .keepLast => .ok (.map (Entries.ofPairs members))
  | .rejectRepeated =>
    if levels = 0 then .error (.tooDeep .function)
    else
      match Entries.firstRepeated? (members.map Prod.fst) with
      | some key => .error ((ReadError.repeatedKey key).metWithin levels)
      | none => .ok (.map members)

def isSpace (c : Code) : Bool :=
  c == .char ' ' || c == .char '\t' || c == .char '\n' || c == .char '\r'

def skipSpace (cs : List Code) : List Code := cs.dropWhile isSpace

/-- The words that stand for values. -/
def words : List (Text × Document) :=
  [("null", .null), ("true", .bool true), ("false", .bool false), ("NaN", .float .nan),
    ("Infinity", .float (.infinity false)), ("-Infinity", .float (.infinity true))]

/-- Splits a word off a text. -/
def word? (cs : List Code) : Option (Document × List Code) :=
  (words.find? fun w => w.1.codes.isPrefixOf cs).map fun w => (w.2, cs.drop w.1.codes.length)

/-- Whether a word takes a call to be made a value, as those for numbers do. -/
def isCalled : Document → Bool
  | .float _ => true
  | _ => false

/-- Reads a word or a number where `levels` more brackets might open. -/
def plainValue (levels : Nat) (cs : List Code) : Except ReadError (Document × List Code) :=
  match word? cs with
  | some r => if levels = 0 ∧ isCalled r.1 then .error (.tooDeep .object) else .ok r
  | none =>
    match number? cs with
    | none => .error (.grammar .expectingValue cs.length)
    | some (n, rest) =>
      match n.value with
      | .ok v => .ok (v, rest)
      | .error limit => .error (.digitLimit limit)

/-- Reads the key of a member with its colon, up to the value. -/
def memberKey (cs : List Code) : Except ReadError (Text × List Code) :=
  match cs with
  | .char '"' :: r => do
    let (key, rest) ← string r
    match skipSpace rest with
    | .char ':' :: r => return (key, skipSpace r)
    | r => throw (.grammar .expectingColon r.length)
  | _ => .error (.grammar .expectingName cs.length)

mutual

/-- Reads a value inside brackets where `levels` more may open. -/
def value (policy : KeyPolicy) : (fuel levels : Nat) → List Code →
    Except ReadError (Document × List Code)
  | 0, _, cs => .error (.grammar .expectingValue cs.length)
  | fuel + 1, levels, cs =>
    match cs with
    | .char '"' :: r => do
      let (s, rest) ← (string r).mapError (·.metWithin levels)
      return (.str s, rest)
    | .char '[' :: r =>
      match levels with
      | 0 => .error (.tooDeep (.opening .list))
      | levels + 1 =>
        match skipSpace r with
        | .char ']' :: rest => .ok (.list [], rest)
        | r => items policy fuel levels [] r
    | .char '\x7b' :: r =>
      match levels with
      | 0 => .error (.tooDeep (.opening .map))
      | levels + 1 =>
        match skipSpace r with
        | .char '\x7d' :: rest => do
          let v ← policy.close levels []
          return (v, rest)
        | r => members policy fuel levels [] r
    | cs => plainValue levels cs

/-- Reads the items of a list onto those read, and the closing bracket. -/
def items (policy : KeyPolicy) : (fuel levels : Nat) → (read : List Document) → List Code →
    Except ReadError (Document × List Code)
  | 0, _, _, cs => .error (.grammar .expectingValue cs.length)
  | fuel + 1, levels, read, cs => do
    let (v, rest) ← value policy fuel levels cs
    match skipSpace rest with
    | .char ']' :: rest => return (.list (v :: read).reverse, rest)
    | .char ',' :: rest => items policy fuel levels (v :: read) (skipSpace rest)
    | rest => throw ((ReadError.grammar .expectingComma rest.length).metWithin levels)

/-- Reads the members of a mapping onto those read, and the closing bracket. -/
def members (policy : KeyPolicy) : (fuel levels : Nat) → (read : List (Text × Document)) →
    List Code → Except ReadError (Document × List Code)
  | 0, _, _, cs => .error (.grammar .expectingValue cs.length)
  | fuel + 1, levels, read, cs => do
    let (key, rest) ← (memberKey cs).mapError (·.metWithin levels)
    let (v, rest) ← value policy fuel levels rest
    match skipSpace rest with
    | .char '\x7d' :: rest => do
      let v ← policy.close levels ((key, v) :: read).reverse
      return (v, rest)
    | .char ',' :: rest => members policy fuel levels ((key, v) :: read) (skipSpace rest)
    | rest => throw ((ReadError.grammar .expectingComma rest.length).metWithin levels)

end

/-- Reads a whole text as one value with blanks around it, in which brackets may be `levels` deep.
Every step of the descent but one per bracket takes a code point, so twice the length is enough. -/
def read (policy : KeyPolicy) (levels : Nat) (text : List Code) : Except ReadError Document := do
  let (v, rest) ← value policy (2 * text.length + 2) levels (skipSpace text)
  match skipSpace rest with
  | [] => return v
  | rest => throw (.grammar .extraData rest.length)

/-- Reads a decoded text, which may not start with a byte order mark. -/
def readMarked (policy : KeyPolicy) (levels : Nat) (text : List Code) :
    Except ReadError Document :=
  match text with
  | .char '\ufeff' :: _ => .error (.grammar .byteOrderMark text.length)
  | _ => read policy levels text

end FieldProgram.Json

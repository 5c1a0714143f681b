import FieldProgram.Document.Layer
import FieldProgram.Yaml.Base64
import FieldProgram.Yaml.Timestamp

/-!
# Values without parts

What a scalar stands for. Beside the values that documents have, these are octets, dates and times.
`Atom.sameness` says which of them are one key of a mapping.
-/

namespace FieldProgram.Yaml

open Numeral

inductive Atom
  | null
  | bool (b : Bool)
  | int (n : Int)
  | float (x : Binary64)
  | str (t : Text)
  | octets (bs : List UInt8)
  | timestamp (t : Timestamp)
  deriving DecidableEq, Repr

namespace Atom

/-! ## Display -/

/-- The levels that the display of an atom goes into. Only times with a zone have a part, which has
one of its own unless it is that of the zero offset. -/
def levels : Atom → Nat
  | timestamp t =>
    match t.time.bind DayTime.zone with
    | none => 0
    | some z => if z = 0 then 1 else 2
  | _ => 0

/-- The display of an atom, wherever it has room. -/
def display : Atom → Except Limit String
  | null => .ok "None"
  | bool b => .ok (Display.truth b)
  | int n => decimalText n
  | float x => .ok x.text
  | str t => .ok t.quoted
  | octets bs => .ok (Base64.shown bs)
  | timestamp t => .ok t.shown

/-- The display of an atom, which may go into the given levels. -/
def shown (levels : Nat) (a : Atom) : Except Limit String :=
  if levels < a.levels then .error .nesting else a.display

/-- The label of a member under an atom. The plain text of a date or time is not its display. -/
def label : Atom → Label
  | str t => .text t
  | timestamp t => .other (.ok t.shown) (.ok t.text)
  | a => .other a.display a.display

/-- The layer of an atom, which has no parts. -/
def layer {ν : Type} : Atom → Layer ν
  | null => .null
  | bool b => .bool b
  | int n => .int n
  | float x => .float x
  | str t => .str t
  | octets _ => .other
  | timestamp _ => .other

/-! ## Vacancy -/

/-- Whether an atom is null, false, zero, or an empty text. -/
def isVacant : Atom → Bool
  | null => true
  | bool b => !b
  | int n => n == 0
  | float x => x.isZero
  | str t => t.isEmpty
  | octets bs => bs.isEmpty
  | timestamp _ => false

/-! ## Keys -/

/-- What is common to all atoms that are the same key. -/
inductive Sameness
  /-- Truth values and numbers without a fraction. -/
  | number (n : Int)
  /-- A time with a zone. -/
  | instant (micros : Int)
  /-- A value that is no number, by the node it comes from; those that are named are the same. -/
  | nan (source : Option Nat)
  | itself (a : Atom)
  deriving DecidableEq, Repr

/-- What is common to an atom and all that are the same key, given the source that counts if it is
not a number. -/
def sameness (source : Option Nat) : Atom → Sameness
  | bool b => .number (if b then 1 else 0)
  | int n => .number n
  | float .nan => .nan source
  | float x =>
    match x.toInt? with
    | some n => .number n
    | none => .itself (float x)
  | timestamp t =>
    match t.instant? with
    | some micros => .instant micros
    | none => .itself (timestamp t)
  | a => .itself a

end Atom

end FieldProgram.Yaml

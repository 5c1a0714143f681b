import FieldProgram.Document.Layer
import FieldProgram.Numeral.Literal

/-!
# Integers in documents

An integer is written as an integer or as a text that holds an integer literal. Truth values are
not integers.
-/

namespace FieldProgram

open Numeral

/-- Why a value is not an integer. -/
inductive LiteralFault
  | truthValue (b : Bool)
  | wrongKind (kind : Kind)
  | badText (text : Text)
  | tooLong (text : Text) (limit : Limit)
  deriving DecidableEq, Repr

def LiteralFault.message : LiteralFault → String
  | .truthValue b => "Expected an integer literal, got " ++ Display.truth b
  | .wrongKind kind => "Expected an integer literal, got " ++ kind.word
  | .badText text => "Invalid integer literal " ++ text.quoted
  | .tooLong text limit => "Invalid integer literal " ++ text.quoted ++ ": " ++ limit.message

/-- The integer of a literal in a text. -/
def integerOfText (text : Text) : Except LiteralFault Int :=
  match text.chars?.bind Literal.ofChars? with
  | none => .error (.badText text)
  | some l => l.value.mapError (.tooLong text)

/-- The integer that a layer stands for. -/
def Layer.integer {ν : Type} : Layer ν → Except LiteralFault Int
  | .int n => .ok n
  | .str t => integerOfText t
  | .bool b => .error (.truthValue b)
  | l => .error (.wrongKind l.kind)

/-- The integer that a document stands for. -/
def Document.integer (d : Document) : Except LiteralFault Int := d.outer.integer

end FieldProgram

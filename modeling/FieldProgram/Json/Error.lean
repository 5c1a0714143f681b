import FieldProgram.Numeral.Decimal
import FieldProgram.Text.Position
import FieldProgram.Text.Quoted

/-!
# What can be wrong with a JSON text

An error of syntax says how many code points were left where it was found, so a reader need not
count. `ReadError.message` turns that into line, column and offset. Inside many brackets few calls
are left to a reader, and `ReadError.metWithin` says which errors it can still tell.
-/

namespace FieldProgram.Json

open Numeral

/-- A rule of the grammar that a text breaks. -/
inductive Complaint
  | expectingValue
  | expectingName
  | expectingComma
  | expectingColon
  | extraData
  | unterminatedString
  | controlCharacter
  | badEscape
  | badUnicodeEscape
  | byteOrderMark
  deriving DecidableEq, Repr

def Complaint.message : Complaint → String
  | .expectingValue => "Expecting value"
  | .expectingName => "Expecting property name enclosed in double quotes"
  | .expectingComma => "Expecting ',' delimiter"
  | .expectingColon => "Expecting ':' delimiter"
  | .extraData => "Extra data"
  | .unterminatedString => "Unterminated string starting at"
  | .controlCharacter => "Invalid control character at"
  | .badEscape => "Invalid \\escape"
  | .badUnicodeEscape => "Invalid \\uXXXX escape"
  | .byteOrderMark => "Unexpected UTF-8 BOM (decode using utf-8-sig)"

/-- The two kinds of bracket. -/
inductive Bracket
  | list
  | map
  deriving DecidableEq, Repr

def Bracket.word : Bracket → String
  | .list => "array"
  | .map => "object"

/-- What a reader is about to do where no call is left for it. -/
inductive Call
  | opening (bracket : Bracket)
  /-- Calling a function that is written in the language itself. -/
  | function
  /-- Calling anything else. -/
  | object
  /-- Displaying a value. -/
  | display
  deriving DecidableEq, Repr

def Call.words : Call → String
  | .opening bracket => " while decoding a JSON " ++ bracket.word ++ " from a unicode string"
  | .function => ""
  | .object => " while calling a Python object"
  | .display => " while getting the repr of an object"

/-- Why a text could not be read. -/
inductive ReadError
  /-- A rule was broken with `left` code points left. -/
  | grammar (rule : Complaint) (left : Nat)
  /-- A key stands twice in one object. -/
  | repeatedKey (key : Text)
  /-- An integer has too many digits. -/
  | digitLimit (limit : Limit)
  /-- Brackets are nested so deep that no call is left. -/
  | tooDeep (call : Call)
  deriving DecidableEq, Repr

/-- The wording of an error in a text. -/
def ReadError.message (text : List Code) : ReadError → String
  | .grammar rule left =>
    let offset := text.length - left
    rule.message ++ ": line " ++ toString (Text.lineAt text offset) ++ " column " ++
      toString (Text.columnAt text offset) ++ " (char " ++ toString offset ++ ")"
  | .repeatedKey key => "duplicate key " ++ key.quoted
  | .digitLimit limit => limit.message
  | .tooDeep call => "maximum recursion depth exceeded" ++ call.words

/-- What becomes of an error that is met inside brackets where `levels` more might open. Making it
takes calls of its own, so with few left the lack of calls is told instead. -/
def ReadError.metWithin (levels : Nat) : ReadError → ReadError
  | .grammar .expectingValue left => .grammar .expectingValue left
  | .grammar rule left =>
    if 3 ≤ levels then .grammar rule left
    else .tooDeep (if levels = 1 then .function else .object)
  | .repeatedKey key => if 2 ≤ levels then .repeatedKey key else .tooDeep .display
  | e => e

end FieldProgram.Json

import FieldProgram.Numeral.Decimal
import FieldProgram.Text.Quoted

/-!
# What can be wrong with a YAML text

A text may be malformed, which `Fault` describes. Or it is well formed and the value that it
denotes does not exist, such as the thirteenth month; that is a `ValueFault`, and it has a wording.
-/

namespace FieldProgram.Yaml

open Numeral

/-- Why a text is not a YAML document that can be read. -/
inductive Fault
  | unprintable (c : Char)
  /-- Characters that make no token, with what was being read. -/
  | token (what : String)
  /-- Tokens that make no document, with what was expected. -/
  | structure (expected : String)
  | directive (name : String)
  | undefinedHandle (handle : String)
  | undefinedAlias (name : String)
  | repeatedAnchor (name : String)
  | undefinedTag (tag : String)
  /-- A node of a kind that its tag does not admit. -/
  | wrongNode (tag : String)
  | unhashableKey
  | badMerge
  | badBinary
  deriving DecidableEq, Repr

/-- Why the value that a text denotes does not exist. -/
inductive ValueFault
  | digitLimit (limit : Limit)
  | notInteger (base : Nat) (text : Text)
  | notFloat (text : Text)
  /-- No characters where a number should be. -/
  | noNumber
  /-- A place of a number in base sixty that no number with a point reaches. -/
  | placeTooLarge
  | notTruth (text : Text)
  | notTimestamp
  /-- A mapping where the text of a date or time should be. -/
  | timestampMapping
  /-- The number of an escape beyond all code points. -/
  | noCode
  /-- The number of an escape beyond 31 bits. -/
  | codeTooLarge
  | yearRange (year : Nat)
  | monthRange
  | dayRange
  | hourRange
  | minuteRange
  | secondRange
  /-- A distance of a time zone of a day or more, as displayed. -/
  | zoneRange (shown : String)
  /-- Nodes that lead to each other too often for the calls that are left. -/
  | tooDeep
  deriving DecidableEq, Repr

/-- The most characters of a display of a text that is no integer. -/
def shownLimit : Nat := 200

def ValueFault.message : ValueFault → String
  | .digitLimit limit => limit.message
  | .notInteger base text =>
    "invalid literal for int() with base " ++ toString base ++ ": " ++
      String.ofList (text.quoted.toList.take shownLimit)
  | .notFloat text => "could not convert string to float: " ++ text.quoted
  | .noNumber => "string index out of range"
  | .placeTooLarge => "int too large to convert to float"
  | .notTruth text => text.quoted
  | .notTimestamp => "'NoneType' object has no attribute 'groupdict'"
  | .timestampMapping => "expected string or bytes-like object, got 'list'"
  | .noCode => "chr() arg not in range(0x110000)"
  | .codeTooLarge => "Python int too large to convert to C int"
  | .yearRange year => "year " ++ toString year ++ " is out of range"
  | .monthRange => "month must be in 1..12"
  | .dayRange => "day is out of range for month"
  | .hourRange => "hour must be in 0..23"
  | .minuteRange => "minute must be in 0..59"
  | .secondRange => "second must be in 0..59"
  | .zoneRange shown =>
    "offset must be a timedelta strictly between -timedelta(hours=24) and " ++
      "timedelta(hours=24), not " ++ shown ++ "."
  | .tooDeep => "maximum recursion depth exceeded"

/-- Why a text has no value. -/
inductive ReadFault
  | malformed (f : Fault)
  | value (f : ValueFault)
  deriving DecidableEq, Repr

/-- A reader's result, or why there is none. -/
abbrev Result (α : Type) := Except ReadFault α

/-- Fails on characters that make no token. -/
def noToken {α : Type} (what : String) : Result α := .error (.malformed (.token what))

/-- Fails on tokens that make no document. -/
def expected {α : Type} (what : String) : Result α := .error (.malformed (.structure what))

/-- One level further in, if one is left. -/
def further : (levels : Nat) → Result Nat
  | 0 => .error (.value .tooDeep)
  | levels + 1 => .ok levels

end FieldProgram.Yaml

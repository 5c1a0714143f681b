import FieldProgram.Numeral.Hexadecimal
import FieldProgram.Text.Basic
import FieldProgram.Text.Printable

/-!
# Quoted display of text

A text is displayed between single quotes, or between double quotes when it holds a single quote
and no double one. The chosen quote, the backslash and code points that are not printable are
written as escapes.
-/

namespace FieldProgram.Text

open Numeral

/-- The quote that surrounds the display of a text. -/
def quoteFor (t : Text) : Char :=
  if t.codes.contains (.char '\'') && !t.codes.contains (.char '"') then '"' else '\''

/-- The display of one character between the given quotes. -/
def quotedChar (quote c : Char) : List Char :=
  if c == quote || c == '\\' then ['\\', c]
  else if c == '\n' then ['\\', 'n']
  else if c == '\r' then ['\\', 'r']
  else if c == '\t' then ['\\', 't']
  else if isPrintable c then [c]
  else if c.toNat < 0x100 then '\\' :: 'x' :: hexDigitsPadded 2 c.toNat
  else if c.toNat < 0x10000 then '\\' :: 'u' :: hexDigitsPadded 4 c.toNat
  else '\\' :: 'U' :: hexDigitsPadded 8 c.toNat

/-- The display of one code point between the given quotes. -/
def quotedCode (quote : Char) : Code → List Char
  | .char c => quotedChar quote c
  | .lone half => '\\' :: 'u' :: hexDigitsPadded 4 (Code.lone half).number

/-- The display of a text. -/
def quoted (t : Text) : String :=
  let quote := quoteFor t
  String.ofList (quote :: t.codes.flatMap (quotedCode quote) ++ [quote])

end FieldProgram.Text

import FieldProgram.Text.Utf8
import FieldProgram.Text.WideUnits

/-!
# Octets in an encoding that they show

A text may come in UTF-8, UTF-16 or UTF-32. A byte order mark tells which; without one the zero
octets among the first four tell, because the text starts with ASCII characters.
-/

namespace FieldProgram.Text

/-- An encoding, with the number of octets of its byte order mark if it has one. -/
inductive Encoding
  | utf8 (mark : Nat)
  | utf16 (order : ByteOrder) (mark : Nat)
  | utf32 (order : ByteOrder) (mark : Nat)
  deriving DecidableEq, Repr

namespace Encoding

/-- The encoding that zero octets show. -/
def ofZeros : List UInt8 → Encoding
  | a :: b :: c :: d :: _ =>
    if a = 0 then if b = 0 then .utf32 .bigEndian 0 else .utf16 .bigEndian 0
    else if b = 0 then
      if c = 0 && d = 0 then .utf32 .littleEndian 0 else .utf16 .littleEndian 0
    else .utf8 0
  | [a, b] =>
    if a = 0 then .utf16 .bigEndian 0
    else if b = 0 then .utf16 .littleEndian 0
    else .utf8 0
  | _ => .utf8 0

/-- The encoding that octets show. -/
def sniff : List UInt8 → Encoding
  | 0x00 :: 0x00 :: 0xfe :: 0xff :: _ => .utf32 .bigEndian 4
  | 0xff :: 0xfe :: 0x00 :: 0x00 :: _ => .utf32 .littleEndian 4
  | 0xfe :: 0xff :: _ => .utf16 .bigEndian 2
  | 0xff :: 0xfe :: _ => .utf16 .littleEndian 2
  | 0xef :: 0xbb :: 0xbf :: _ => .utf8 3
  | octets => ofZeros octets

/-- Decodes octets without their byte order mark. Offsets in UTF-8 count from behind the mark and
others from the first octet. -/
def decode (octets : List UInt8) : Encoding → Except DecodeError (List Code)
  | .utf8 mark => Utf8.decodeLenient (octets.drop mark)
  | .utf16 order mark => Utf16.decode order mark (octets.drop mark)
  | .utf32 order mark => Utf32.decode order mark (octets.drop mark)

end Encoding

/-- Decodes octets in the encoding that they show. -/
def decodeSniffed (octets : List UInt8) : Except DecodeError (List Code) :=
  (Encoding.sniff octets).decode octets

end FieldProgram.Text

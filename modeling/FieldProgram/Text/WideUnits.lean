import FieldProgram.Text.Basic
import FieldProgram.Text.Octets

/-!
# UTF-16 and UTF-32

Code points as units of two or four octets, in either order of octets. Halves of surrogate pairs
that stand alone pass.
-/

namespace FieldProgram.Text

/-- Which octet of a unit comes first. -/
inductive ByteOrder
  | bigEndian
  | littleEndian
  deriving DecidableEq, Repr

namespace ByteOrder

def suffix : ByteOrder → String
  | .bigEndian => "be"
  | .littleEndian => "le"

/-- The number of the given octets. -/
def number (order : ByteOrder) (octets : List UInt8) : Nat :=
  let digits := match order with
    | .bigEndian => octets
    | .littleEndian => octets.reverse
  digits.foldl (fun n b => n * 256 + b.toNat) 0

end ByteOrder

/-! ## UTF-16 -/

namespace Utf16

/-- Whether a unit is the first half of a pair. -/
def isHigh (u : Nat) : Bool := 0xd800 ≤ u && u < 0xdc00

/-- Whether a unit is the second half of a pair. -/
def isLow (u : Nat) : Bool := 0xdc00 ≤ u && u < 0xe000

/-- The first code point of octets that are not empty. -/
def step (order : ByteOrder) : List UInt8 → DecodeStep Code
  | a :: b :: c :: d :: bs =>
    let u := order.number [a, b]
    let v := order.number [c, d]
    if isHigh u && isLow v then
      .symbol (.ofNumber (0x10000 + (u - 0xd800) * 0x400 + (v - 0xdc00))) 4 bs
    else .symbol (.ofNumber u) 2 (c :: d :: bs)
  | a :: b :: bs => .symbol (.ofNumber (order.number [a, b])) 2 bs
  | bs => .fault bs.length .truncated

/-- Decodes octets of which the first stands at the offset `start`. -/
def decode (order : ByteOrder) (start : Nat) (octets : List UInt8) :
    Except DecodeError (List Code) :=
  decodeAll ("utf-16-" ++ order.suffix) (step order) start octets

end Utf16

/-! ## UTF-32 -/

namespace Utf32

/-- The first code point of octets that are not empty. -/
def step (order : ByteOrder) : List UInt8 → DecodeStep Code
  | a :: b :: c :: d :: bs =>
    let code := order.number [a, b, c, d]
    if code < 0x110000 then .symbol (.ofNumber code) 4 bs else .fault 4 .outOfRange
  | bs => .fault bs.length .truncated

/-- Decodes octets of which the first stands at the offset `start`. -/
def decode (order : ByteOrder) (start : Nat) (octets : List UInt8) :
    Except DecodeError (List Code) :=
  decodeAll ("utf-32-" ++ order.suffix) (step order) start octets

end Utf32

end FieldProgram.Text

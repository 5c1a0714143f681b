/-!
# Decoding octets

A decoder takes symbols off the front of a list of octets one at a time: characters, or code points
where lone halves of surrogate pairs may pass. Where it cannot go on it says how many octets are at
fault and why; `decodeAll` turns that into a place.
-/

namespace FieldProgram.Text

/-- Why octets are not the code of a symbol. -/
inductive DecodeFault
  | invalidStart
  | invalidContinuation
  | unexpectedEnd
  | truncated
  | outOfRange
  deriving DecidableEq, Repr

def DecodeFault.message : DecodeFault → String
  | .invalidStart => "invalid start byte"
  | .invalidContinuation => "invalid continuation byte"
  | .unexpectedEnd => "unexpected end of data"
  | .truncated => "truncated data"
  | .outOfRange => "code point not in range(0x110000)"

/-- Octets that could not be decoded: `count` of them from the offset `start` on. -/
structure DecodeError where
  codec : String
  start : Nat
  count : Nat
  first : UInt8
  fault : DecodeFault
  deriving DecidableEq, Repr

/-- The two hexadecimal digits of an octet. -/
def octetDigits (b : UInt8) : String :=
  String.ofList [Nat.digitChar (b.toNat / 16), Nat.digitChar (b.toNat % 16)]

def DecodeError.message (e : DecodeError) : String :=
  "'" ++ e.codec ++ "' codec can't decode byte" ++
    (if e.count = 1 then " 0x" ++ octetDigits e.first ++ " in position " ++ toString e.start
    else "s in position " ++ toString e.start ++ "-" ++ toString (e.start + e.count - 1)) ++
    ": " ++ e.fault.message

/-- What a decoder finds at the front of octets that are not empty. -/
inductive DecodeStep (α : Type)
  /-- A symbol, the number of its octets and what follows them. -/
  | symbol (a : α) (count : Nat) (rest : List UInt8)
  /-- Octets at fault, from the first on. -/
  | fault (count : Nat) (fault : DecodeFault)

/-- Decodes octets from the offset `start` on, onto the symbols read. Each step takes an octet, so
as much fuel as there are octets is enough. -/
def decodeFrom {α : Type} (codec : String) (step : List UInt8 → DecodeStep α) :
    (fuel start : Nat) → (read : List α) → List UInt8 → Except DecodeError (List α)
  | _, _, read, [] => .ok read.reverse
  | 0, _, read, _ :: _ => .ok read.reverse
  | fuel + 1, start, read, b :: bs =>
    match step (b :: bs) with
    | .symbol a count rest => decodeFrom codec step fuel (start + count) (a :: read) rest
    | .fault count fault => .error ⟨codec, start, count, b, fault⟩

/-- Decodes octets of which the first stands at the offset `start`. -/
def decodeAll {α : Type} (codec : String) (step : List UInt8 → DecodeStep α) (start : Nat)
    (octets : List UInt8) : Except DecodeError (List α) :=
  decodeFrom codec step octets.length start [] octets

end FieldProgram.Text

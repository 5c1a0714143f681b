import FieldProgram.Text.Basic
import FieldProgram.Text.Octets

/-!
# UTF-8

A character is one octet below 0x80, or a lead octet and one to three octets that continue it. The
lead octet says how many continue it and narrows the range of the first of them, so that no
character has two codes and no half of a surrogate pair has one. A lenient decoder lets these halves
pass.
-/

namespace FieldProgram.Text.Utf8

/-- What a lead octet announces: its own share of the code point, the number of octets to follow,
and the range of the first of these. -/
structure Lead where
  share : Nat
  follow : Nat
  low : UInt8
  high : UInt8
  deriving DecidableEq, Repr

/-- The announcement of a lead octet. -/
def lead? (b : UInt8) : Option Lead :=
  if b < 0xc2 then none
  else if b < 0xe0 then some ⟨b.toNat - 0xc0, 1, 0x80, 0xbf⟩
  else if b = 0xe0 then some ⟨0, 2, 0xa0, 0xbf⟩
  else if b = 0xed then some ⟨0xd, 2, 0x80, 0x9f⟩
  else if b < 0xf0 then some ⟨b.toNat - 0xe0, 2, 0x80, 0xbf⟩
  else if b = 0xf0 then some ⟨0, 3, 0x90, 0xbf⟩
  else if b < 0xf4 then some ⟨b.toNat - 0xf0, 3, 0x80, 0xbf⟩
  else if b = 0xf4 then some ⟨4, 3, 0x80, 0x8f⟩
  else none

/-- Whether an octet continues a character. -/
def continues (b : UInt8) : Bool := 0x80 ≤ b && b ≤ 0xbf

/-- The six bits that an octet adds to a code point. -/
def extend (code : Nat) (b : UInt8) : Nat := code * 64 + b.toNat % 64

variable {α : Type}

/-- Takes the octets that are still to follow and makes a symbol of the code point. -/
def follow (make : Nat → α) : (left code taken : Nat) → List UInt8 → DecodeStep α
  | 0, code, taken, bs => .symbol (make code) taken bs
  | _ + 1, _, taken, [] => .fault taken .unexpectedEnd
  | left + 1, code, taken, b :: bs =>
    if continues b then follow make left (extend code b) (taken + 1) bs
    else .fault taken .invalidContinuation

/-- The first symbol of octets that are not empty. -/
def step (make : Nat → α) : List UInt8 → DecodeStep α
  | [] => .fault 0 .unexpectedEnd
  | a :: bs =>
    if a < 0x80 then .symbol (make a.toNat) 1 bs
    else
      match lead? a, bs with
      | none, _ => .fault 1 .invalidStart
      | some _, [] => .fault 1 .unexpectedEnd
      | some l, b :: bs =>
        if l.low ≤ b && b ≤ l.high then follow make (l.follow - 1) (extend l.share b) 2 bs
        else .fault 1 .invalidContinuation

/-- The first code point of octets that are not empty, which may be half of a surrogate pair. -/
def lenientStep : List UInt8 → DecodeStep Code
  | 0xed :: b :: c :: bs =>
    if 0xa0 ≤ b && continues b && continues c then
      .symbol (.ofNumber (extend (extend 0xd b) c)) 3 bs
    else step .ofNumber (0xed :: b :: c :: bs)
  | bs => step .ofNumber bs

/-- Decodes octets. -/
def decode (octets : List UInt8) : Except DecodeError (List Char) :=
  decodeAll "utf-8" (step Char.ofNat) 0 octets

/-- Decodes octets, letting halves of surrogate pairs pass. -/
def decodeLenient (octets : List UInt8) : Except DecodeError (List Code) :=
  decodeAll "utf-8" lenientStep 0 octets

/-- The octets of a text. -/
def encode (cs : List Char) : List UInt8 := cs.flatMap String.utf8EncodeChar

end FieldProgram.Text.Utf8

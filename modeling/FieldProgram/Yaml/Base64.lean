import FieldProgram.Text.Octets

/-!
# Octets in base 64

Four characters stand for three octets, six bits each. Characters outside the alphabet are passed
over. An equals sign ends the octets where two or three characters of four stand before it, two
signs after two and one after three.
-/

namespace FieldProgram.Yaml.Base64

/-- The six bits of a character of the alphabet. -/
def bits? (c : Char) : Option Nat :=
  if 'A' ≤ c ∧ c ≤ 'Z' then some (c.toNat - 'A'.toNat)
  else if 'a' ≤ c ∧ c ≤ 'z' then some (c.toNat - 'a'.toNat + 26)
  else if '0' ≤ c ∧ c ≤ '9' then some (c.toNat - '0'.toNat + 52)
  else if c = '+' then some 62
  else if c = '/' then some 63
  else none

/-- The octets of the six bits of up to four characters; a single character makes none. -/
def octetsOf : List Nat → List UInt8
  | a :: b :: rest =>
    UInt8.ofNat (a * 4 + b / 16) ::
      match rest with
      | c :: rest =>
        UInt8.ofNat (b % 16 * 16 + c / 4) ::
          match rest with
          | d :: _ => [UInt8.ofNat (c % 4 * 64 + d)]
          | [] => []
      | [] => []
  | _ => []

/-- Decodes characters, given the six bits of those of the last four that are not complete and the
number of equals signs directly before. Fails where the last four stay incomplete. -/
def decodeFrom : (open4 : List Nat) → (signs : Nat) → List Char → Option (List UInt8)
  | [], _, [] => some []
  | _ :: _, _, [] => none
  | open4, signs, c :: cs =>
    if c = '=' then
      let signs := if 2 ≤ open4.length then signs + 1 else signs
      if 2 ≤ open4.length ∧ 4 ≤ open4.length + signs then some (octetsOf open4)
      else decodeFrom open4 signs cs
    else
      match bits? c with
      | none => decodeFrom open4 signs cs
      | some b =>
        let four := open4 ++ [b]
        if four.length = 4 then (decodeFrom [] 0 cs).map (octetsOf four ++ ·)
        else decodeFrom four 0 cs

/-- The octets of a text, which must be ASCII. -/
def decode (cs : List Char) : Option (List UInt8) :=
  if cs.all fun c => c.toNat < 0x80 then decodeFrom [] 0 cs else none

/-- The display of one octet between the given quotes. -/
def shownOctet (quote : Char) (b : UInt8) : List Char :=
  let c := Char.ofNat b.toNat
  if c = quote ∨ c = '\\' then ['\\', c]
  else if c = '\t' then ['\\', 't']
  else if c = '\n' then ['\\', 'n']
  else if c = '\r' then ['\\', 'r']
  else if 0x20 ≤ b ∧ b < 0x7f then [c]
  else '\\' :: 'x' :: (Text.octetDigits b).toList

/-- The display of octets. -/
def shown (bs : List UInt8) : String :=
  let quote := if bs.contains 0x27 ∧ ¬ bs.contains 0x22 then '"' else '\''
  String.ofList ('b' :: quote :: bs.flatMap (shownOctet quote) ++ [quote])

end FieldProgram.Yaml.Base64

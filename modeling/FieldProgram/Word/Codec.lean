import FieldProgram.Word.Arithmetic

/-!
# Words in documents

A field element is written as a hexadecimal text and an address as a mapping of its two parts. A
field element is read from any integer literal, reduced modulo the prime.
-/

namespace FieldProgram.Word

open Numeral

/-- A word as a value. -/
def encode : Word → Document
  | .felt f => .str (hexText f.value)
  | .relocatable r => .map [("segment_index", .int r.segment), ("offset", .int r.offset)]

/-- The keys of an address. -/
def addressKeys : List Text := ["segment_index", "offset"]

/-- Whether the keys are those of an address, in any order. -/
def isAddressKeys (keys : List Text) : Bool :=
  keys.all (addressKeys.contains ·) && addressKeys.all (keys.contains ·)

/-- The address that a mapping stands for. -/
def decodeAddress (ms : List (Text × Document)) : Except WordError Relocatable :=
  if isAddressKeys (ms.map Prod.fst) then
    match ms.lookup ("segment_index" : Text), ms.lookup ("offset" : Text) with
    | some (.int s), some (.int o) => Relocatable.ofValues (.int s) (.int o)
    | _, _ => .error .badFields
  else .error (.badKeys (ms.map Prod.fst))

/-- The word that a value stands for, with a modulus given as a value. -/
def decodeValues (d prime : Document) : Except WordError Word :=
  match d with
  | .map ms => (decodeAddress ms).map .relocatable
  | d =>
    match d.integer with
    | .ok n => (Felt.reduceValues (.int n) prime).map .felt
    | .error fault => .error (.literal fault)

/-- The word that a value stands for. -/
def decode (d : Document) (prime : Int) : Except WordError Word := decodeValues d (.int prime)

end FieldProgram.Word

namespace FieldProgram.Operand

/-- The word of an operand as a value. -/
def encode : Operand → Except WordError Document
  | .word w => .ok w.encode
  | .int n => WordError.fail (.notWord (.int n))
  | .other d => WordError.fail (.notWord d)

end FieldProgram.Operand

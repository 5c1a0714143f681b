import FieldProgram.Document.Integer
import FieldProgram.Numeral.Hexadecimal
import FieldProgram.Text.Template

/-!
# Words of the machine

A word is a field element, reduced modulo its prime, or a relocatable address inside a segment.
`Felt.reduce` takes an integer into the field; `Felt.ofValues` accepts only what is in range.
-/

namespace FieldProgram

open Numeral

/-- An element of the integers modulo `prime`, in canonical form. The modulus need not be prime
for anything done here. -/
structure Felt where
  value : Nat
  prime : Nat
  one_lt_prime : 1 < prime
  value_lt_prime : value < prime
  deriving DecidableEq, Repr

/-- An address inside a memory segment. -/
structure Relocatable where
  segment : Nat
  offset : Nat
  deriving DecidableEq, Repr

/-- A word of memory. -/
inductive Word
  | felt (f : Felt)
  | relocatable (r : Relocatable)
  deriving DecidableEq, Repr

/-! ## What can go wrong with words -/

/-- Why an operation on words has no result. -/
inductive WordError
  /-- A modulus that is not an integer above one. -/
  | badPrime (got : Document)
  /-- A modulus beyond all floating-point numbers, for a value that is one. -/
  | primeBeyondFloat
  /-- A text for a value that the modulus does not fill as a template. -/
  | template (fault : Template.Fault)
  /-- A value of a field element that is not an integer. -/
  | valueKind (kind : Kind)
  | outOfRange (value prime : Int)
  /-- A part of an address that is not an integer from zero on. -/
  | badPart (part : String) (got : Document)
  | mixedPrimes
  | literal (fault : LiteralFault)
  /-- A mapping whose keys are not those of an address. -/
  | badKeys (keys : List Text)
  /-- A mapping for an address with a part that is not an integer. -/
  | badFields
  | notWord (got : Document)
  /-- An operation that the operands do not have. -/
  | unsupported
  /-- A text that would need an overlong integer. -/
  | limit (limit : Limit)

namespace WordError

/-- The wording of an error, unless it would need an overlong integer. -/
def text : WordError → Except Limit String
  | .badPrime got => do
    return "Field prime must be an integer greater than 1, got " ++ (← got.display)
  | .primeBeyondFloat => .ok "int too large to convert to float"
  | .template fault => .ok fault.message
  | .valueKind kind => .ok ("Field element value must be an int, got " ++ kind.word)
  | .outOfRange value prime => do
    return "Value " ++ (← decimalText value) ++ " is outside the field range [0, " ++
      (← decimalText prime) ++ ")"
  | .badPart part got => do
    return "Relocatable " ++ part ++ " must be a non-negative int, got " ++ (← got.display)
  | .mixedPrimes => .ok "Cannot combine field elements of different primes"
  | .literal fault => .ok fault.message
  | .badKeys keys =>
    .ok ("Relocatable literal must have exactly 'segment_index' and 'offset', got " ++
      Display.list ((keys.mergeSort Text.le).map Text.quoted))
  | .badFields => .ok "Relocatable literal fields must be integers"
  | .notWord got => do return "Not a machine word: " ++ (← got.display)
  | .unsupported => .ok "unsupported operand"
  | .limit l => .ok l.message

/-- Fails with an error, or with the digit limit where the error cannot be worded. -/
def fail {α : Type} (e : WordError) : Except WordError α :=
  match e.text with
  | .ok _ => .error e
  | .error l => .error (.limit l)

end WordError

/-! ## Field elements -/

namespace Felt

/-- The integer reduced into the field, if the modulus is above one. -/
def reduce? (value prime : Int) : Option Felt :=
  if h : 1 < prime then
    some {
      value := (value % prime).toNat
      prime := prime.toNat
      one_lt_prime := by omega
      value_lt_prime := by
        have := Int.emod_nonneg value (b := prime) (by omega)
        have := Int.emod_lt_of_pos value (b := prime) (by omega)
        omega }
  else none

/-- The integer reduced into the field. -/
def reduce (value prime : Int) : Except WordError Felt :=
  match reduce? value prime with
  | some f => .ok f
  | none => WordError.fail (.badPrime (.int prime))

/-- The field element of an integer that is in range. -/
def ofInt (value prime : Int) : Except WordError Felt :=
  if hp : 1 < prime then
    if h : 0 ≤ value ∧ value < prime then
      .ok ⟨value.toNat, prime.toNat, by omega, by omega⟩
    else WordError.fail (.outOfRange value prime)
  else WordError.fail (.badPrime (.int prime))

/-- A modulus given as a value. -/
def primeOf : Document → Except WordError Int
  | .int p => if 1 < p then .ok p else WordError.fail (.badPrime (.int p))
  | got => WordError.fail (.badPrime got)

/-- The field element of a value that must be an integer in range. -/
def ofValues (value prime : Document) : Except WordError Felt := do
  let p ← primeOf prime
  match value with
  | .int n => ofInt n p
  | v => .error (.valueKind v.kind)

/-- The field element of a value reduced into the field. A truth value counts as one or zero. A
floating-point number leaves one as its remainder, and a text is a template that the modulus fills;
neither result is an integer. -/
def reduceValues (value prime : Document) : Except WordError Felt := do
  let p ← primeOf prime
  match value with
  | .int n => reduce n p
  | .bool b => reduce (if b then 1 else 0) p
  | .float _ =>
    if Binary64.ofInt p = .infinity false then .error .primeBeyondFloat
    else .error (.valueKind .float)
  | .str t =>
    match Template.check t p.toNat with
    | .ok _ => .error (.valueKind .str)
    | .error fault => .error (.template fault)
  | _ => .error .unsupported

theorem reduce?_value {value prime : Int} {f : Felt} (h : reduce? value prime = some f) :
    (f.value : Int) = value % prime ∧ (f.prime : Int) = prime := by
  unfold reduce? at h
  split at h
  · rename_i hp
    cases h
    have := Int.emod_nonneg value (b := prime) (by omega)
    exact ⟨by simp; omega, by simp; omega⟩
  · cases h

@[simp] theorem reduceValues_int (n prime : Int) :
    reduceValues (.int n) (.int prime) = reduce n prime := by
  by_cases h : 1 < prime
  · simp [reduceValues, primeOf, h, bind, Except.bind]
  · cases ht : (WordError.badPrime (.int prime)).text <;>
      simp [reduceValues, primeOf, h, reduce, reduce?, WordError.fail, ht, bind, Except.bind]

/-- The text of a field element is its value. -/
def text (f : Felt) : Except Limit String := decimalText f.value

/-- The display of a field element. -/
def shown (f : Felt) : Except Limit String := do
  return "FieldElement(" ++ (← f.text) ++ ", prime=" ++ hexText f.prime ++ ")"

end Felt

/-! ## Addresses -/

namespace Relocatable

/-- A part of an address, which is an integer from zero on. -/
def part (name : String) : Document → Except WordError Nat
  | .int n => if 0 ≤ n then .ok n.toNat else WordError.fail (.badPart name (.int n))
  | got => WordError.fail (.badPart name got)

/-- The address with the given parts. -/
def ofValues (segment offset : Document) : Except WordError Relocatable := do
  let s ← part "segment_index" segment
  let o ← part "offset" offset
  return ⟨s, o⟩

/-- The text of an address. -/
def text (r : Relocatable) : Except Limit String := do
  return (← decimalText r.segment) ++ ":" ++ (← decimalText r.offset)

/-- The display of an address. -/
def shown (r : Relocatable) : Except Limit String := do
  return "RelocatableValue(segment_index=" ++ (← decimalText r.segment) ++ ", offset=" ++
    (← decimalText r.offset) ++ ")"

end Relocatable

namespace Word

def text : Word → Except Limit String
  | .felt f => f.text
  | .relocatable r => r.text

def shown : Word → Except Limit String
  | .felt f => f.shown
  | .relocatable r => r.shown

end Word

end FieldProgram

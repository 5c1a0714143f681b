import FieldProgram.Word.Basic

/-!
# Arithmetic on words

Field elements of one prime are added, subtracted and multiplied with each other and with plain
integers on either side; the result is reduced. Addresses and other values have no arithmetic.
-/

namespace FieldProgram

open Numeral

/-- What stands in an operation: a word, a plain integer, or something else. -/
inductive Operand
  | word (w : Word)
  | int (n : Int)
  | other (d : Document)

namespace Operand

@[match_pattern] abbrev felt (f : Felt) : Operand := .word (.felt f)

end Operand

/-- An operation of arithmetic with two operands. -/
inductive Operation
  | add
  | sub
  | mul
  deriving DecidableEq, Repr

/-- The operation on integers. -/
def Operation.onInt : Operation → Int → Int → Int
  | .add, a, b => a + b
  | .sub, a, b => a - b
  | .mul, a, b => a * b

namespace Felt

/-- The integer reduced into the field of another element. -/
def like (f : Felt) (n : Int) : Felt where
  value := (n % f.prime).toNat
  prime := f.prime
  one_lt_prime := f.one_lt_prime
  value_lt_prime := by
    have := f.one_lt_prime
    have := Int.emod_nonneg n (b := f.prime) (by omega)
    have := Int.emod_lt_of_pos n (b := f.prime) (by omega)
    omega

theorem like_value (f : Felt) (n : Int) : ((f.like n).value : Int) = n % f.prime := by
  have := f.one_lt_prime
  have := Int.emod_nonneg n (b := f.prime) (by omega)
  simp [like]; omega

/-- The additive inverse. -/
def neg (f : Felt) : Felt := f.like (-f.value)

end Felt

namespace Operand

/-- A plain integer, a truth value standing for one or zero beside it. -/
def integer? : Operand → Option Int
  | .int n => some n
  | .other (.bool b) => some (if b then 1 else 0)
  | _ => none

/-- The result of an operation. -/
def apply (op : Operation) : Operand → Operand → Except WordError Operand
  | .felt f, .felt g =>
    if f.prime = g.prime then .ok (.felt (f.like (op.onInt f.value g.value)))
    else .error .mixedPrimes
  | .felt f, .int n => .ok (.felt (f.like (op.onInt f.value n)))
  | .int n, .felt f => .ok (.felt (f.like (op.onInt n f.value)))
  | .word _, _ => .error .unsupported
  | _, .word _ => .error .unsupported
  | a, b =>
    match a.integer?, b.integer? with
    | some m, some n => .ok (.int (op.onInt m n))
    | _, _ => .error .unsupported

/-- The operand with its sign turned. -/
def negate : Operand → Except WordError Operand
  | .felt f => .ok (.felt f.neg)
  | .word (.relocatable _) => .error .unsupported
  | a =>
    match a.integer? with
    | some n => .ok (.int (-n))
    | none => .error .unsupported

/-- The integer inside an operand. -/
def toInt : Operand → Except WordError Int
  | .felt f => .ok f.value
  | .word (.relocatable _) => .error .unsupported
  | a =>
    match a.integer? with
    | some n => .ok n
    | none => .error .unsupported

/-- The text of an operand. -/
def text : Operand → Except Limit Text
  | .word w => w.text.map Text.ofString
  | .int n => (decimalText n).map Text.ofString
  | .other d => d.plain

/-- The display of an operand. -/
def shown : Operand → Except Limit String
  | .word w => w.shown
  | .int n => decimalText n
  | .other d => d.display

end Operand

/-! ## Expressions -/

/-- An expression over operands. -/
inductive Expression
  | leaf (a : Operand)
  | negate (e : Expression)
  | apply (op : Operation) (left right : Expression)

/-- The value of an expression, its operands evaluated from left to right. -/
def Expression.eval : Expression → Except WordError Operand
  | .leaf a => .ok a
  | .negate e => do (← e.eval).negate
  | .apply op l r => do
    let a ← l.eval
    let b ← r.eval
    a.apply op b

end FieldProgram

import FieldProgram.Proofs.Outcome
import FieldProgram.Word.Arithmetic
import Mathlib.Data.Int.ModEq

/-!
# Values of expressions

Reducing after each operation of an expression gives what reducing once at the end gives. So an
expression over field elements of one prime and plain integers has the value that it has over the
integers, reduced.

* `Expression.number?`, `Expression.primes`: the integer of an expression and the primes in it;
* `Evaluates.negate`, `Evaluates.apply`: how one operation ends, given how its operands do;
* `eval_evaluates`: how an expression ends;
* `eval_reduces_number`: the value of an expression, and the operations that have none.
-/

namespace FieldProgram

/-! ## Numbers -/

namespace Operand

/-- The operand is a field element or a plain integer. -/
inductive IsNumber : Operand → Prop
  | felt (f : Felt) : IsNumber (.felt f)
  | int (n : Int) : IsNumber (.int n)

/-- The integer of a field element or of a plain integer. -/
def number? : Operand → Option Int
  | .felt f => some f.value
  | .int n => some n
  | _ => none

/-- The prime of a field element. -/
def prime? : Operand → Option Nat
  | .felt f => some f.prime
  | _ => none

end Operand

namespace Expression

/-- The operands from left to right. -/
def operands : Expression → List Operand
  | .leaf a => [a]
  | .negate e => e.operands
  | .apply _ l r => l.operands ++ r.operands

/-- The primes of the field elements from left to right. -/
def primes : Expression → List Nat
  | .leaf a => a.prime?.toList
  | .negate e => e.primes
  | .apply _ l r => l.primes ++ r.primes

/-- The value over the integers, field elements read as their values. -/
def number? : Expression → Option Int
  | .leaf a => a.number?
  | .negate e => e.number?.map fun n => -n
  | .apply op l r => do
    let m ← l.number?
    let n ← r.number?
    return op.onInt m n

theorem exists_number {e : Expression} (numbers : ∀ a ∈ e.operands, a.IsNumber) :
    ∃ n, e.number? = some n := by
  induction e with
  | leaf a =>
    cases numbers a (List.mem_cons_self ..) with
    | felt f => exact ⟨f.value, rfl⟩
    | int n => exact ⟨n, rfl⟩
  | negate e ih =>
    obtain ⟨n, hn⟩ := ih numbers
    exact ⟨-n, by simp [number?, hn]⟩
  | apply op l r ihl ihr =>
    simp only [operands, List.forall_mem_append] at numbers
    obtain ⟨m, hm⟩ := ihl numbers.1
    obtain ⟨n, hn⟩ := ihr numbers.2
    exact ⟨op.onInt m n, by simp [number?, hm, hn]⟩

end Expression

/-! ## Reduction -/

/-- The result of an operation modulo a prime depends on its operands modulo the prime alone. -/
theorem Operation.onInt_modEq (op : Operation) {a b m n p : Int} (left : a ≡ m [ZMOD p])
    (right : b ≡ n [ZMOD p]) : op.onInt a b ≡ op.onInt m n [ZMOD p] := by
  cases op with
  | add => exact left.add right
  | sub => exact left.sub right
  | mul => exact left.mul right

/-- What an operation reduces to is in the range that field elements are checked for. -/
theorem Felt.ofInt_emod (f : Felt) (n : Int) : ofInt (n % f.prime) f.prime = .ok (f.like n) := by
  have prime : (1 : Int) < f.prime := by
    have := f.one_lt_prime
    omega
  have low : 0 ≤ n % f.prime := Int.emod_nonneg n (by omega)
  have high : n % f.prime < f.prime := Int.emod_lt_of_pos n (by omega)
  rw [ofInt, dif_pos prime, dif_pos ⟨low, high⟩]
  rfl

/-- The element is the reduced integer. -/
theorem Felt.modEq_of_value {f : Felt} {n : Int} (value : (f.value : Int) = n % f.prime) :
    f.value ≡ n [ZMOD f.prime] := by
  rw [value]
  exact Int.mod_modEq n f.prime

/-! ## One operation -/

/-- How an expression may end that is `n` over the integers and has field elements with the primes
`ps`. -/
inductive Evaluates (n : Int) (ps : List Nat) : Except WordError Operand → Prop
  | plain (none : ps = []) : Evaluates n ps (.ok (.int n))
  | reduced (f : Felt) (one : f.prime ∈ ps) (same : ∀ p ∈ ps, p = f.prime)
    (value : (f.value : Int) = n % f.prime) : Evaluates n ps (.ok (.felt f))
  | mixed {p q : Nat} (left : p ∈ ps) (right : q ∈ ps) (differ : p ≠ q) :
    Evaluates n ps (.error .mixedPrimes)

namespace Evaluates

variable {m n : Int} {ps qs : List Nat} {a b : Except WordError Operand}

theorem negate (h : Evaluates n ps a) :
    Evaluates (-n) ps (a >>= Operand.negate) := by
  cases h with
  | plain none => exact .plain none
  | reduced f one same value =>
    refine .reduced f.neg one same ?_
    rw [Felt.neg, Felt.like_value]
    exact (Felt.modEq_of_value value).neg
  | mixed left right differ => exact .mixed left right differ

/-- Of two field elements the primes decide. -/
theorem apply_felts (op : Operation) {f g : Felt} (first : Evaluates m ps (.ok (.felt f)))
    (second : Evaluates n qs (.ok (.felt g))) :
    Evaluates (op.onInt m n) (ps ++ qs) ((Operand.felt f).apply op (.felt g)) := by
  obtain _ | ⟨_, one, same, value⟩ := first
  obtain _ | ⟨_, one', same', value'⟩ := second
  by_cases prime : f.prime = g.prime
  · have result : (Operand.felt f).apply op (.felt g) =
        .ok (.felt (f.like (op.onInt f.value g.value))) := if_pos prime
    rw [result]
    refine .reduced _ (List.mem_append_left _ one) (fun p hp => ?_) ?_
    · rcases List.mem_append.mp hp with hp | hp
      · exact same p hp
      · exact (same' p hp).trans prime.symm
    · rw [Felt.like_value]
      exact op.onInt_modEq (Felt.modEq_of_value value) (prime ▸ Felt.modEq_of_value value')
  · have result : (Operand.felt f).apply op (.felt g) = .error .mixedPrimes := if_neg prime
    rw [result]
    exact .mixed (List.mem_append_left _ one) (List.mem_append_right _ one') prime

theorem apply (op : Operation) (ha : Evaluates m ps a) (hb : Evaluates n qs b) :
    Evaluates (op.onInt m n) (ps ++ qs) (a >>= fun a => b >>= fun b => a.apply op b) := by
  cases ha with
  | mixed left right differ =>
    exact .mixed (List.mem_append_left _ left) (List.mem_append_left _ right) differ
  | plain none =>
    subst none
    cases hb with
    | plain none' =>
      subst none'
      exact .plain rfl
    | reduced g one same value =>
      refine .reduced (g.like (op.onInt m g.value)) one same ?_
      rw [Felt.like_value]
      exact op.onInt_modEq (Int.ModEq.refl m) (Felt.modEq_of_value value)
    | mixed left right differ => exact .mixed left right differ
  | reduced f one same value =>
    cases hb with
    | plain none' =>
      subst none'
      rw [List.append_nil]
      refine .reduced (f.like (op.onInt f.value n)) one same ?_
      rw [Felt.like_value]
      exact op.onInt_modEq (Felt.modEq_of_value value) (Int.ModEq.refl n)
    | mixed left right differ =>
      exact .mixed (List.mem_append_right _ left) (List.mem_append_right _ right) differ
    | reduced g one' same' value' =>
      exact apply_felts op (.reduced f one same value) (.reduced g one' same' value')

/-! ### The end that it is -/

theorem eq_int (h : Evaluates n [] a) : a = .ok (.int n) := by
  cases h with
  | plain none => rfl
  | reduced f one same value => cases one
  | mixed left right differ => cases left

theorem exists_felt {p : Nat} (h : Evaluates n ps a) (mem : p ∈ ps) (only : ∀ q ∈ ps, q = p) :
    ∃ f : Felt, a = .ok (.felt f) ∧ f.prime = p ∧ (f.value : Int) = n % p := by
  cases h with
  | plain none =>
    subst none
    cases mem
  | reduced f one same value =>
    have prime : f.prime = p := only f.prime one
    exact ⟨f, rfl, prime, prime ▸ value⟩
  | mixed left right differ => exact absurd ((only _ left).trans (only _ right).symm) differ

theorem eq_mixedPrimes {p q : Nat} (h : Evaluates n ps a) (left : p ∈ ps) (right : q ∈ ps)
    (differ : p ≠ q) : a = .error .mixedPrimes := by
  cases h with
  | plain none =>
    subst none
    cases left
  | reduced f one same value => exact absurd ((same p left).trans (same q right).symm) differ
  | mixed left right differ => rfl

end Evaluates

/-! ## Expressions -/

theorem eval_evaluates {e : Expression} {n : Int} (h : e.number? = some n) :
    Evaluates n e.primes e.eval := by
  induction e generalizing n with
  | leaf a =>
    cases a with
    | word w =>
      cases w with
      | felt f =>
        obtain rfl := Option.some.inj h
        refine .reduced f (List.mem_cons_self ..) (fun p hp => List.mem_singleton.mp hp) ?_
        have := f.value_lt_prime
        rw [Int.emod_eq_of_lt] <;> omega
      | relocatable r => cases h
    | int k =>
      obtain rfl := Option.some.inj h
      exact .plain rfl
    | other d => cases h
  | negate e ih =>
    obtain ⟨k, hk, rfl⟩ := Option.map_eq_some_iff.mp h
    exact (ih hk).negate
  | apply op l r ihl ihr =>
    obtain ⟨i, hi, h⟩ := Option.bind_eq_some_iff.mp h
    obtain ⟨k, hk, h⟩ := Option.bind_eq_some_iff.mp h
    obtain rfl := Option.some.inj h
    exact (ihl hi).apply op (ihr hk)

/-! ## Operations without a result -/

theorem apply_relocatable_left (op : Operation) (r : Relocatable) (a : Operand) :
    Operand.apply op (.word (.relocatable r)) a = .error .unsupported := by
  cases a <;> rfl

theorem apply_relocatable_right (op : Operation) (r : Relocatable) (a : Operand) :
    Operand.apply op a (.word (.relocatable r)) = .error .unsupported := by
  cases a with
  | word w => cases w <;> rfl
  | int n => rfl
  | other d => rfl

/-- An operation fails only for its operands, not for the range of its result. -/
theorem apply_error {op : Operation} {a b : Operand} {e : WordError}
    (h : a.apply op b = .error e) : e = .mixedPrimes ∨ e = .unsupported := by
  unfold Operand.apply at h
  repeat' split at h
  all_goals cases h
  all_goals simp

theorem negate_error {a : Operand} {e : WordError} (h : a.negate = .error e) :
    e = .mixedPrimes ∨ e = .unsupported := by
  unfold Operand.negate at h
  repeat' split at h
  all_goals cases h
  all_goals simp

theorem eval_error {e : Expression} {fault : WordError} (h : e.eval = .error fault) :
    fault = .mixedPrimes ∨ fault = .unsupported := by
  induction e with
  | leaf a => cases h
  | negate e ih =>
    rcases Except.bind_eq_error.mp h with h | ⟨a, -, h⟩
    · exact ih h
    · exact negate_error h
  | apply op l r ihl ihr =>
    rcases Except.bind_eq_error.mp h with h | ⟨a, -, h⟩
    · exact ihl h
    · rcases Except.bind_eq_error.mp h with h | ⟨b, -, h⟩
      · exact ihr h
      · exact apply_error h

/-- An address has a value on its own and takes part in no operation. -/
theorem eq_leaf_of_relocatable {e : Expression} {r : Relocatable} {a : Operand}
    (mem : .word (.relocatable r) ∈ e.operands) (h : e.eval = .ok a) :
    e = .leaf (.word (.relocatable r)) := by
  induction e generalizing a with
  | leaf b => rw [List.mem_singleton.mp mem]
  | negate e ih =>
    obtain ⟨b, hb, h⟩ := Except.bind_eq_ok.mp h
    obtain rfl := ih mem hb
    obtain rfl := Except.ok.inj hb
    cases h
  | apply op l r' ihl ihr =>
    obtain ⟨b, hb, h⟩ := Except.bind_eq_ok.mp h
    obtain ⟨c, hc, h⟩ := Except.bind_eq_ok.mp h
    rcases List.mem_append.mp mem with mem | mem
    · obtain rfl := ihl mem hb
      obtain rfl := Except.ok.inj hb
      rw [apply_relocatable_left] at h
      cases h
    · obtain rfl := ihr mem hc
      obtain rfl := Except.ok.inj hc
      rw [apply_relocatable_right] at h
      cases h

/-! ## Values -/

/-- Expressions over field elements and plain integers are reduced modulo the one prime in them, or
fail for two primes. What an operation reduces to passes the check of the range, so no expression
fails for that. Truth values are no operands beside field elements, and addresses beside
nothing. -/
theorem eval_reduces_number :
    (∀ e : Expression, (∀ a ∈ e.operands, a.IsNumber) → ∃ n, e.number? = some n ∧
      (e.primes = [] → e.eval = .ok (.int n)) ∧
      (∀ p ∈ e.primes, (∀ q ∈ e.primes, q = p) →
        ∃ f : Felt, e.eval = .ok (.felt f) ∧ f.prime = p ∧ (f.value : Int) = n % p) ∧
      (∀ p ∈ e.primes, ∀ q ∈ e.primes, p ≠ q → e.eval = .error .mixedPrimes)) ∧
    (∀ (f : Felt) (n : Int), Felt.ofInt (n % f.prime) f.prime = .ok (f.like n)) ∧
    (∀ (e : Expression) (value prime : Int), e.eval ≠ .error (.outOfRange value prime)) ∧
    (∀ (op : Operation) (f : Felt) (b : Bool),
      Operand.apply op (.felt f) (.other (.bool b)) = .error .unsupported ∧
      Operand.apply op (.other (.bool b)) (.felt f) = .error .unsupported) ∧
    (∀ (op : Operation) (r : Relocatable) (a : Operand),
      Operand.apply op (.word (.relocatable r)) a = .error .unsupported ∧
      Operand.apply op a (.word (.relocatable r)) = .error .unsupported ∧
      Operand.negate (.word (.relocatable r)) = .error .unsupported) ∧
    ∀ (e : Expression) (r : Relocatable) (a : Operand), .word (.relocatable r) ∈ e.operands →
      e.eval = .ok a → e = .leaf (.word (.relocatable r)) := by
  refine ⟨fun e numbers => ?_, Felt.ofInt_emod, fun e value prime h => ?_, ?_, ?_, ?_⟩
  · obtain ⟨n, hn⟩ := e.exists_number numbers
    have ends := eval_evaluates hn
    refine ⟨n, hn, fun none => ?_, fun p mem only => ends.exists_felt mem only,
      fun p left q right differ => ends.eq_mixedPrimes left right differ⟩
    rw [none] at ends
    exact ends.eq_int
  · rcases eval_error h with h | h <;> cases h
  · exact fun op f b => ⟨rfl, rfl⟩
  · exact fun op r a => ⟨apply_relocatable_left op r a, apply_relocatable_right op r a, rfl⟩
  · exact fun e r a mem h => eq_leaf_of_relocatable mem h

/-- The expression `(3 - x) * -(y + 5)`. -/
def mixedExpression (x y : Felt) : Expression :=
  .apply .mul (.apply .sub (.leaf (.int 3)) (.leaf (.felt x)))
    (.negate (.apply .add (.leaf (.felt y)) (.leaf (.int 5))))

/-- Over the integers it is 42 for 5 and 16. -/
theorem eval_mixedExpression :
    (∀ a ∈ (mixedExpression ⟨5, 17, by decide, by decide⟩
      ⟨16, 17, by decide, by decide⟩).operands, a.IsNumber) ∧
    ∃ f : Felt, (mixedExpression ⟨5, 17, by decide, by decide⟩
      ⟨16, 17, by decide, by decide⟩).eval = .ok (.felt f) ∧ f.prime = 17 ∧
      (f.value : Int) = 42 % 17 := by
  have numbers : ∀ a ∈ (mixedExpression ⟨5, 17, by decide, by decide⟩
      ⟨16, 17, by decide, by decide⟩).operands, a.IsNumber := by
    simp only [mixedExpression, Expression.operands, List.cons_append, List.nil_append,
      List.forall_mem_cons]
    exact ⟨.int 3, .felt _, .felt _, .int 5, by simp⟩
  obtain ⟨n, hn, -, reduced, -⟩ := eval_reduces_number.1 _ numbers
  obtain rfl : 42 = n := Option.some.inj hn
  exact ⟨numbers, reduced 17 (by decide) (by decide)⟩

end FieldProgram

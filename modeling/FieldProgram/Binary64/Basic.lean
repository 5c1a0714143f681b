/-!
# Binary floating-point numbers of 53 bits

A finite number is a sign, a significand below 2^53 and a power of two; it is held in normal form,
so equal values have equal representations. `ofRatio` rounds a ratio to the nearest number, a tie
to the even significand.
-/

namespace FieldProgram

/-- A binary floating-point number. -/
inductive Binary64
  | nan
  | infinity (negative : Bool)
  /-- The number `± significand * 2 ^ exponent`. -/
  | finite (negative : Bool) (significand : Nat) (exponent : Int)
  deriving DecidableEq, Repr

namespace Binary64

/-- The smallest exponent of a finite number. -/
def minExponent : Int := -1074

/-- The largest exponent of a finite number. -/
def maxExponent : Int := 971

/-- The bound of significands. -/
def significandBound : Nat := Nat.pow 2 53

def zero (negative : Bool) : Binary64 := .finite negative 0 minExponent

/-- The natural number nearest to a ratio, a tie going to the even one. -/
def roundRatio (num den : Nat) : Nat :=
  let q := num / den
  let r := num % den
  if den < 2 * r ∨ (den = 2 * r ∧ q % 2 = 1) then q + 1 else q

/-- The ratio `num / den / 2 ^ e` as a numerator and a denominator. -/
def scaleDown (num den : Nat) (e : Int) : Nat × Nat :=
  (num * Nat.pow 2 (-e).toNat, den * Nat.pow 2 e.toNat)

/-- The exponent at which the significand of `num / den` has 53 bits, or the smallest one. -/
def exponentFor (num den : Nat) : Int :=
  let e := max minExponent ((num.log2 : Int) - den.log2 - 52)
  let (n, d) := scaleDown num den e
  if n / d < significandBound / 2 ∧ minExponent < e then e - 1 else e

/-- The number nearest to `± num / den`. -/
def ofRatio (negative : Bool) (num den : Nat) : Binary64 :=
  if num = 0 then zero negative
  else
    let e := exponentFor num den
    let (n, d) := scaleDown num den e
    let m := roundRatio n d
    let (m, e) := if m = significandBound then (m / 2, e + 1) else (m, e)
    if maxExponent < e then .infinity negative else .finite negative m e

/-- The number nearest to an integer. -/
def ofInt (n : Int) : Binary64 := ofRatio (n < 0) n.natAbs 1

/-- The number nearest to `± digits * 10 ^ exponent`. The exponents at which nothing but zero or
infinity can be nearest are decided first. -/
def ofDecimal (negative : Bool) (digits : Nat) (exponent : Int) : Binary64 :=
  if digits = 0 then zero negative
  else if 1100 < (digits.log2 : Int) + 3 * exponent ∧ 0 < exponent then .infinity negative
  else if (digits.log2 : Int) + 1 + 3 * exponent < -1100 ∧ exponent < 0 then zero negative
  else ofRatio negative (digits * Nat.pow 10 exponent.toNat) (Nat.pow 10 (-exponent).toNat)

def negate : Binary64 → Binary64
  | .nan => .nan
  | .infinity s => .infinity (!s)
  | .finite s m e => .finite (!s) m e

/-- A finite number as a multiple of the smallest positive one. -/
def units (negative : Bool) (significand : Nat) (exponent : Int) : Int :=
  let n : Int := (significand * Nat.pow 2 (exponent - minExponent).toNat : Nat)
  if negative then -n else n

/-- How many times the smallest positive number goes into one. -/
def unitsPerOne : Nat := Nat.pow 2 (-minExponent).toNat

/-- The nearest number to the sum. Infinity absorbs the other summand unless this is the opposite
infinity. -/
def add : Binary64 → Binary64 → Binary64
  | .finite s m e, .finite s' m' e' =>
    let total := units s m e + units s' m' e'
    ofRatio (if total = 0 then s && s' else total < 0) total.natAbs unitsPerOne
  | .nan, _ => .nan
  | _, .nan => .nan
  | .infinity s, .infinity s' => if s = s' then .infinity s else .nan
  | .infinity s, .finite .. => .infinity s
  | .finite .., .infinity s => .infinity s

/-- The nearest number to the product, which infinity and zero do not have. -/
def mul : Binary64 → Binary64 → Binary64
  | .finite s m e, .finite s' m' e' =>
    let total := (units s m e * units s' m' e').natAbs
    ofRatio (s != s') total (unitsPerOne * unitsPerOne)
  | .nan, _ => .nan
  | _, .nan => .nan
  | .infinity s, .infinity s' => .infinity (s != s')
  | .infinity s, .finite s' m _ => if m = 0 then .nan else .infinity (s != s')
  | .finite s m _, .infinity s' => if m = 0 then .nan else .infinity (s != s')

/-- The integer that a number is equal to. -/
def toInt? : Binary64 → Option Int
  | .nan => none
  | .infinity _ => none
  | .finite s m e =>
    let unit := Nat.pow 2 (-e).toNat
    if m % unit = 0 then
      let n : Int := (m / unit * Nat.pow 2 e.toNat : Nat)
      some (if s then -n else n)
    else none

/-- Whether the number is a zero. -/
def isZero : Binary64 → Bool
  | .finite _ 0 _ => true
  | _ => false

end Binary64

end FieldProgram

import FieldProgram.Binary64.Basic

/-!
# The shortest decimal that reads back

Among the decimals that round to a number, the shortest is wanted, and of those of one length the
nearest. For a given length only the two neighbours of the number on the decimal grid of that
length need a look: if any point of the grid rounds to the number, so does one of them.
-/

namespace FieldProgram.Binary64

/-- A decimal `digits * 10 ^ exponent`. -/
structure Decimal where
  digits : Nat
  exponent : Int
  deriving DecidableEq, Repr

/-- The reals that round to a number, in quarters of its last place. -/
structure Interval where
  low : Nat
  value : Nat
  high : Nat
  closed : Bool
  deriving DecidableEq, Repr

/-- The interval around `significand * 2 ^ exponent`. Below a power of two the gap is halved, and
the ends round to an even significand. -/
def intervalOf (significand : Nat) (exponent : Int) : Interval where
  low := 4 * significand -
    if significand = significandBound / 2 ∧ minExponent < exponent then 1 else 2
  value := 4 * significand
  high := 4 * significand + 2
  closed := significand % 2 = 0

/-- Whether `x / y` lies in the interval, with bounds scaled by `y`. -/
def Interval.has (i : Interval) (scale unit point : Nat) : Bool :=
  let p := point * unit
  if i.closed then i.low * scale ≤ p && p ≤ i.high * scale
  else i.low * scale < p && p < i.high * scale

/-- The neighbour of the number on the grid of `10 ^ grid` that rounds to it and is nearest. -/
def onGrid? (i : Interval) (quarterExponent grid : Int) : Option Decimal :=
  let scale := Nat.pow 2 quarterExponent.toNat * Nat.pow 10 (-grid).toNat
  let unit := Nat.pow 2 (-quarterExponent).toNat * Nat.pow 10 grid.toNat
  let below := i.value * scale / unit
  let downOk := i.has scale unit below
  let upOk := i.has scale unit (below + 1)
  let down := i.value * scale - below * unit
  let up := (below + 1) * unit - i.value * scale
  if downOk && (!upOk || down < up || (down == up && below % 2 == 0)) then some ⟨below, grid⟩
  else if upOk then some ⟨below + 1, grid⟩
  else none

/-- The least `k` with `significand * 2 ^ exponent < 10 ^ k`, searched upward from a low guess. -/
def magnitude (significand : Nat) (exponent : Int) : Int :=
  let bits : Int := significand.log2 + exponent
  let guess : Int := Int.fdiv (bits * 30103) 100000 - 1
  let below (k : Int) : Bool :=
    significand * Nat.pow 2 exponent.toNat * Nat.pow 10 (-k).toNat <
      Nat.pow 10 k.toNat * Nat.pow 2 (-exponent).toNat
  ([guess, guess + 1, guess + 2].find? below).getD (guess + 3)

/-- Takes trailing zeros off the digits. -/
def Decimal.stripZeros : Nat → Decimal → Decimal
  | 0, d => d
  | n + 1, d =>
    if d.digits % 10 = 0 ∧ d.digits ≠ 0 then stripZeros n ⟨d.digits / 10, d.exponent + 1⟩ else d

/-- The shortest decimal that rounds to the number, and the nearest of that length. -/
def shortest (significand : Nat) (exponent : Int) : Decimal :=
  let i := intervalOf significand exponent
  let k := magnitude significand exponent
  let grids := (List.range 17).map fun n => k - (n + 1 : Nat)
  ((grids.findSome? (onGrid? i (exponent - 2))).getD ⟨significand, 0⟩).stripZeros 17

end FieldProgram.Binary64

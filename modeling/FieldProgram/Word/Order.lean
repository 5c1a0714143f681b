import FieldProgram.Word.Arithmetic

/-!
# Order and equality of words

A field element tells whether it is below another one of its prime, and answers all other questions
about their order from that. Addresses are compared as pairs of segment and offset. A word that
cannot answer leaves the question to the other one; where neither can, words have no order and are
not equal. Where no word is compared, numbers of all kinds are ordered by size, and texts by their
code points.
-/

namespace FieldProgram

/-! ## Questions -/

/-- A question about the order of two operands. -/
inductive Comparison
  | lt
  | le
  | gt
  | ge
  deriving DecidableEq, Repr

namespace Comparison

/-- The answer, given the order of the operands. -/
def holds : Comparison → Ordering → Bool
  | .lt, o => o == .lt
  | .le, o => o != .gt
  | .gt, o => o == .gt
  | .ge, o => o != .lt

/-- The same question from the side of the other operand. -/
def mirrored : Comparison → Comparison
  | .lt => .gt
  | .le => .ge
  | .gt => .lt
  | .ge => .le

/-- The answer about two pairs of numbers, which depends on the first place where they differ. -/
def onPairs (c : Comparison) (a b : Nat × Nat) : Bool :=
  if a.1 = b.1 then c.holds (compare a.2 b.2) else c.holds (compare a.1 b.1)

end Comparison

/-! ## Words -/

namespace Word

/-- Whether a word is equal to another one, which it cannot tell of a word of another sort. -/
def equals? : Word → Word → Option Bool
  | .felt f, .felt g => some ((f.value, f.prime) == (g.value, g.prime))
  | .relocatable r, .relocatable s => some ((r.segment, r.offset) == (s.segment, s.offset))
  | _, _ => none

/-- Whether words are equal. They are not where neither of them can tell. -/
def equal (a b : Word) : Bool := ((a.equals? b).or (b.equals? a)).getD false

/-- Whether words are different. They are where neither of them can tell. -/
def differ (a b : Word) : Bool :=
  (((a.equals? b).map not).or ((b.equals? a).map not)).getD true

end Word

namespace Felt

/-- Whether an element is below a word, which it can tell of an element of its own prime. -/
def below? (f : Felt) : Word → Option Bool
  | .felt g => if g.prime = f.prime then some (decide (f.value < g.value)) else none
  | .relocatable _ => none

/-- What an element answers about itself and a word. -/
def answer? (f : Felt) (c : Comparison) (w : Word) : Option Bool :=
  (f.below? w).map fun below =>
    match c with
    | .lt => below
    | .le => below || (Word.felt f).equal w
    | .gt => !below && (Word.felt f).differ w
    | .ge => !below

end Felt

/-- What an address answers about itself and a word. -/
def Relocatable.answer? (r : Relocatable) (c : Comparison) : Word → Option Bool
  | .relocatable s => some (c.onPairs (r.segment, r.offset) (s.segment, s.offset))
  | .felt _ => none

namespace Word

/-- What a word answers about itself and another one. -/
def answer? (c : Comparison) : Word → Word → Option Bool
  | .felt f, w => f.answer? c w
  | .relocatable r, w => r.answer? c w

/-- Compares two words. The second one is asked if the first one has no answer. -/
def compare (c : Comparison) (a b : Word) : Except WordError Bool :=
  match (answer? c a b).or (answer? c.mirrored b a) with
  | some answer => .ok answer
  | none => .error .unsupported

end Word

/-! ## Other values -/

/-- Where a number stands on a line with infinite ends: at an end or between them, and there as a
multiple of the smallest positive floating-point number. -/
abbrev Position := Int × Int

/-- The order along the line. -/
def Position.order (a b : Position) : Ordering := (compare a.1 b.1).then (compare a.2 b.2)

/-- The position of an integer. -/
def intPosition (n : Int) : Position := (0, n * Binary64.unitsPerOne)

/-- The position of a floating-point number. NaN has none. -/
def Binary64.position? : Binary64 → Option Position
  | .nan => none
  | .infinity negative => some (if negative then -1 else 1, 0)
  | .finite s m e => some (0, units s m e)

/-- The order of texts, code point by code point. -/
def Text.order (a b : Text) : Ordering := if a = b then .eq else if a.le b then .lt else .gt

namespace Operand

/-- The position of a number, where the number has one. -/
def position? : Operand → Option (Option Position)
  | .int n => some (some (intPosition n))
  | .other (.bool b) => some (some (intPosition (if b then 1 else 0)))
  | .other (.float x) => some x.position?
  | _ => none

/-- The answer to a question about two numbers, which is no if one of them is NaN. -/
def comparePositions (c : Comparison) : Option Position → Option Position → Bool
  | some p, some q => c.holds (p.order q)
  | _, _ => false

/-- Compares two operands. Apart from words of one class, numbers have an order, and texts. -/
def compare (c : Comparison) : Operand → Operand → Except WordError Bool
  | .word a, .word b => Word.compare c a b
  | .other (.str t), .other (.str u) => .ok (c.holds (t.order u))
  | a, b =>
    match a.position?, b.position? with
    | some p, some q => .ok (comparePositions c p q)
    | _, _ => .error .unsupported

/-- Whether two operands are equal. A word equals no value of another kind. -/
def equal : Operand → Operand → Bool
  | .word a, .word b => a.equal b
  | .other (.str t), .other (.str u) => t == u
  | .other .null, .other .null => true
  | a, b =>
    match a.position?, b.position? with
    | some (some p), some (some q) => p == q
    | _, _ => false

/-- Whether two operands are different. -/
def differ : Operand → Operand → Bool
  | .word a, .word b => a.differ b
  | a, b => !a.equal b

end Operand

end FieldProgram

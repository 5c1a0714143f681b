import FieldProgram.Address.Basic
import FieldProgram.Text.Basic
import FieldProgram.Text.Blank
import FieldProgram.Text.DecimalDigit

/-!
# Reading addresses

The text of an address is a base, cast to a type or not, and as a whole in square brackets or not:

    fp    ap + 3    [fp + (-3)]    [ap] + 2    (7)    cast(fp + 1, felt*)    [cast(fp, felt*)]

Blanks may stand around `+`, around the base, and between the comma and the type. Either
parenthesis around an integer may be left out. A text of another form has no address, and only
characters make these forms. The form is found first, as a `Shape`; only then are digits turned into
integers, which fails for too many.
-/

namespace FieldProgram.Address

open Numeral Text

/-! ## Integers -/

/-- The digits of an integer, of any script, and its sign. -/
structure SignedDigits where
  negative : Bool
  digits : List Nat
  deriving DecidableEq, Repr

/-- The integer of signed digits. -/
def SignedDigits.value (s : SignedDigits) : Except Limit Int :=
  (ofDecimalDigits s.digits).map fun n => if s.negative then -(n : Int) else n

/-- The integer of an offset, which is zero where none is written. -/
def offsetValue : Option SignedDigits → Except Limit Int
  | none => .ok 0
  | some s => s.value

/-- Takes a character off the front if it is there. -/
def optionally (c : Char) : List Char → Bool × List Char
  | [] => (false, [])
  | d :: cs => if d = c then (true, cs) else (false, d :: cs)

/-- Takes an integer off the front, with a parenthesis before it and one behind it or not. -/
def signedDigits? (cs : List Char) : Option (SignedDigits × List Char) :=
  let (_, cs) := optionally '(' cs
  let (negative, cs) := optionally '-' cs
  match (cs.takeWhile isDecimalDigit).filterMap decimalDigit? with
  | [] => none
  | ds =>
    let (_, rest) := optionally ')' (cs.dropWhile isDecimalDigit)
    some (⟨negative, ds⟩, rest)

/-! ## Bases -/

/-- Takes a register off the front. -/
def registerOf? : List Char → Option (Register × List Char)
  | 'a' :: 'p' :: cs => some (.ap, cs)
  | 'f' :: 'p' :: cs => some (.fp, cs)
  | _ => none

/-- Takes a plus sign with blanks around it, and an integer, off the front. -/
def plus? (cs : List Char) : Option (SignedDigits × List Char) :=
  match trimStart cs with
  | '+' :: cs => signedDigits? (trimStart cs)
  | _ => none

/-- Takes an offset off the front if there is one. -/
def offsetOf (cs : List Char) : Option SignedDigits × List Char :=
  match plus? cs with
  | some (s, rest) => (some s, rest)
  | none => (none, cs)

/-- The form of a base, its integers still as digits. -/
inductive Shape
  | register (r : Register) (offset : Option SignedDigits)
  | inner (r : Register) (offset1 offset2 : Option SignedDigits)
  | immediate (n : SignedDigits)
  deriving DecidableEq, Repr

/-- The base of a form. -/
def Shape.base : Shape → Except Limit Base
  | .register r o => (offsetValue o).map (.register r)
  | .inner r o1 o2 => do
    let n1 ← offsetValue o1
    let n2 ← offsetValue o2
    return .inner r n1 n2
  | .immediate n => n.value.map .immediate

/-- A register and perhaps an offset, up to the end. -/
def registerShape? (cs : List Char) : Option Shape :=
  match registerOf? cs with
  | some (r, cs) =>
    match offsetOf cs with
    | (o, []) => some (.register r o)
    | _ => none
  | none => none

/-- A register and perhaps an offset in brackets, and perhaps an offset behind, up to the end. -/
def innerShape? : List Char → Option Shape
  | '[' :: cs =>
    match registerOf? cs with
    | some (r, cs) =>
      match offsetOf cs with
      | (o1, ']' :: cs) =>
        match offsetOf cs with
        | (o2, []) => some (.inner r o1 o2)
        | _ => none
      | _ => none
    | none => none
  | _ => none

/-- An integer, up to the end. -/
def immediateShape? (cs : List Char) : Option Shape :=
  match signedDigits? cs with
  | some (n, []) => some (.immediate n)
  | _ => none

/-- The form of the text of a base. -/
def Shape.ofChars? (cs : List Char) : Option Shape :=
  (registerShape? cs).or ((innerShape? cs).or (immediateShape? cs))

/-! ## Casts and brackets -/

/-- Takes a cast apart into its body and its type. The text is taken apart from its end, where the
closing parenthesis, the stars, the name, blanks and the comma stand. -/
def castOf? : List Char → Option (List Char × TypeName)
  | 'c' :: 'a' :: 's' :: 't' :: '(' :: cs =>
    match cs.reverse with
    | ')' :: back =>
      let stars := back.takeWhile (· == '*')
      let back := back.dropWhile (· == '*')
      let name := (back.takeWhile TypeName.isNameChar).reverse
      match name, trimStart (back.dropWhile TypeName.isNameChar) with
      | _ :: _, ',' :: body =>
        if body = [] ∨ '\n' ∈ body then none
        else some (body.reverse, ⟨String.ofList name, stars.length⟩)
      | _, _ => none
    | _ => none
  | _ => none

/-- Whether the bracket that is open at `depth` closes with the last character or not at all. -/
def closesLast : (depth : Nat) → List Char → Bool
  | _, [] => true
  | depth, c :: cs =>
    if c = '[' then closesLast (depth + 1) cs
    else if c = ']' then
      if depth = 1 then cs = [] else closesLast (depth - 1) cs
    else closesLast depth cs

/-- The trimmed text between square brackets that surround the whole. -/
def bracketed? : List Char → Option (List Char)
  | '[' :: cs =>
    match cs.getLast? with
    | some ']' => if closesLast 1 cs then some (trim cs.dropLast) else none
    | _ => none
  | _ => none

/-- The form of an expression: a base, cast or not. -/
def expression? (cs : List Char) : Option (Shape × TypeName) :=
  match castOf? cs with
  | some (body, type) => (Shape.ofChars? (trim body)).map (·, type)
  | none => (Shape.ofChars? cs).map (·, .felt)

/-- The form of the text of an address: a base, whether it is dereferenced, and its type. -/
def form? (cs : List Char) : Option (Shape × Bool × TypeName) :=
  let cs := trim cs
  match bracketed? cs with
  | some inside => (expression? inside).map fun (s, t) => (s, true, t.pointee)
  | none => (expression? cs).map fun (s, t) => (s, false, t)

/-- The address that a text stands for. -/
def read (text : Text) : Except Limit (Option Address) :=
  match text.chars?.bind form? with
  | none => .ok none
  | some (s, dereference, type) => s.base.map fun base => some ⟨base, dereference, type⟩

end FieldProgram.Address

import FieldProgram.Numeral.Decimal
import FieldProgram.Text.WordChar

/-!
# Addresses of references

The address of a reference is a register with an offset, the memory that such an address points to
with a further offset, or a constant. It has a type, and may be dereferenced once more.
`Address.render` writes the canonical text of an address.
-/

namespace FieldProgram

open Numeral

inductive Register
  | ap
  | fp
  deriving DecidableEq, Repr

def Register.text : Register → String
  | .ap => "ap"
  | .fp => "fp"

/-- A dotted name with a number of pointer levels. -/
structure TypeName where
  name : String
  stars : Nat
  deriving DecidableEq, Repr

namespace TypeName

/-- The type of a single word. -/
def felt : TypeName := ⟨"felt", 0⟩

/-- Takes one pointer level off, if there is one. -/
def pointee (t : TypeName) : TypeName := { t with stars := t.stars - 1 }

/-- The type of pointers to a type. -/
def pointer (t : TypeName) : TypeName := { t with stars := t.stars + 1 }

def chars (t : TypeName) : List Char := t.name.toList ++ List.replicate t.stars '*'

def text (t : TypeName) : String := String.ofList t.chars

/-- Whether a character may stand in the name of a type. -/
def isNameChar (c : Char) : Bool := Text.isWordChar c || c == '.'

/-- Whether the name is a run of name characters that is not empty. -/
def IsDotted (t : TypeName) : Prop :=
  t.name.toList ≠ [] ∧ ∀ c ∈ t.name.toList, isNameChar c = true

theorem pointee_pointer (t : TypeName) : t.pointer.pointee = t := rfl

end TypeName

namespace Address

/-- What an address is made of. -/
inductive Base
  /-- A register and an offset. -/
  | register (r : Register) (offset : Int)
  /-- The memory at a register and an offset, and a further offset. -/
  | inner (r : Register) (offset1 offset2 : Int)
  | immediate (n : Int)
  deriving DecidableEq, Repr

end Address

/-- The address of a reference. -/
structure Address where
  base : Address.Base
  dereference : Bool
  valueType : TypeName
  deriving DecidableEq, Repr

namespace Address

/-! ## Parts -/

def register? (a : Address) : Option Register :=
  match a.base with
  | .register r _ => some r
  | .inner r _ _ => some r
  | .immediate _ => none

def offset1 (a : Address) : Int :=
  match a.base with
  | .register _ o => o
  | .inner _ o _ => o
  | .immediate _ => 0

def offset2 (a : Address) : Int :=
  match a.base with
  | .inner _ _ o => o
  | _ => 0

def immediate? (a : Address) : Option Int :=
  match a.base with
  | .immediate n => some n
  | _ => none

def innerDereference (a : Address) : Bool :=
  match a.base with
  | .inner .. => true
  | _ => false

/-! ## Canonical text -/

/-- An integer between parentheses. -/
def parenthesized (n : Int) : List Char := '(' :: (shortDecimal n).toList ++ [')']

def Base.chars : Base → List Char
  | .register r o => r.text.toList ++ " + ".toList ++ parenthesized o
  | .inner r o1 o2 =>
    '[' :: r.text.toList ++ " + ".toList ++ parenthesized o1 ++ ']' :: " + ".toList ++
      parenthesized o2
  | .immediate n => parenthesized n

/-- A base cast to a type. -/
def castChars (base : Base) (type : TypeName) : List Char :=
  "cast(".toList ++ base.chars ++ ", ".toList ++ type.chars ++ [')']

/-- The canonical text of an address. -/
def render (a : Address) : String :=
  String.ofList <|
    if a.dereference then '[' :: castChars a.base a.valueType.pointer ++ [']']
    else castChars a.base a.valueType

end Address

end FieldProgram

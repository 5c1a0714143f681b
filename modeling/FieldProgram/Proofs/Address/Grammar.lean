import FieldProgram.Address.Reader
import FieldProgram.Proofs.Text.Blank

/-!
# The grammar of addresses

The form of an address as a relation between texts and forms, put together by concatenation. The
grammar has two parameters: which parentheses may stand around an integer, and what may be the body
of a cast.

* `Grammar.paired` has them in pairs and takes any body; `Grammar.read` is what the reader takes;
  `Grammar.oneLine` is what both have in common;
* `IsAddress`: the text has the form.
-/

namespace FieldProgram.Address

open Numeral Text

structure Grammar where
  /-- Whether an integer may have an opening and a closing parenthesis. -/
  parens : (opening closing : Bool) → Prop
  /-- Whether the text may be the body of a cast. -/
  body : List Char → Prop

/-- Parentheses come in pairs. -/
def Grammar.paired : Grammar := ⟨fun opening closing => opening = closing, fun _ => True⟩

/-- Either parenthesis may be missing, and the body of a cast is on one line. -/
def Grammar.read : Grammar := ⟨fun _ _ => True, fun body => '\n' ∉ body⟩

/-- Parentheses come in pairs, and the body of a cast is on one line. -/
def Grammar.oneLine : Grammar := { Grammar.paired with body := fun body => '\n' ∉ body }

/-! ## Parts -/

/-- The character, or nothing. -/
def only (c : Char) (present : Bool) : List Char := if present then [c] else []

theorem eq_of_mem_only {c d : Char} {present : Bool} (h : d ∈ only c present) : d = c := by
  cases present with
  | true => simpa [only] using h
  | false => cases h

/-- Digits of any script, one at least. -/
def IsDigits (digits : List Nat) (cs : List Char) : Prop :=
  cs ≠ [] ∧ cs.mapM decimalDigit? = some digits

def IsInteger (g : Grammar) (s : SignedDigits) (cs : List Char) : Prop :=
  ∃ opening closing ds, g.parens opening closing ∧ IsDigits s.digits ds ∧
    cs = only '(' opening ++ only '-' s.negative ++ ds ++ only ')' closing

/-- An offset: nothing, or a plus sign with blanks around and an integer. -/
def IsOffset (g : Grammar) : Option SignedDigits → List Char → Prop
  | none, cs => cs = []
  | some s, cs => ∃ before after number, AllBlank before ∧ AllBlank after ∧
      IsInteger g s number ∧ cs = before ++ '+' :: (after ++ number)

def IsBase (g : Grammar) : Shape → List Char → Prop
  | .register r o, cs => ∃ offset, IsOffset g o offset ∧ cs = r.text.toList ++ offset
  | .inner r o1 o2, cs => ∃ first second, IsOffset g o1 first ∧ IsOffset g o2 second ∧
      cs = '[' :: (r.text.toList ++ first ++ ']' :: second)
  | .immediate n, cs => IsInteger g n cs

/-! ## Expressions and addresses -/

/-- The property holds of the text without some blanks at its ends. -/
def Padded (P : List Char → Prop) (cs : List Char) : Prop :=
  ∃ front mid back, AllBlank front ∧ AllBlank back ∧ P mid ∧ cs = front ++ mid ++ back

inductive IsExpression (g : Grammar) : Shape → TypeName → List Char → Prop
  | bare {s : Shape} {cs : List Char} (base : IsBase g s cs) : IsExpression g s .felt cs
  | cast {s : Shape} {type : TypeName} {body gap : List Char} (base : Padded (IsBase g s) body)
    (allowed : g.body body) (blank : AllBlank gap) (dotted : type.IsDotted) :
    IsExpression g s type
      (['c', 'a', 's', 't', '('] ++ (body ++ ',' :: (gap ++ type.chars ++ [')'])))

/-- The text is an expression, or one in square brackets, for which a pointer level comes off. -/
inductive IsAddress (g : Grammar) : Shape × Bool × TypeName → List Char → Prop
  | direct {s : Shape} {type : TypeName} {cs : List Char}
    (expression : Padded (IsExpression g s type) cs) : IsAddress g (s, false, type) cs
  | dereferenced {s : Shape} {type : TypeName} {front inside back : List Char}
    (blank : AllBlank front) (blank' : AllBlank back)
    (expression : Padded (IsExpression g s type) inside) :
    IsAddress g (s, true, type.pointee) (front ++ ('[' :: (inside ++ [']'])) ++ back)

/-! ## How parts start and end -/

theorem isDecimalDigit_of_isDigits {digits : List Nat} {cs : List Char} (h : IsDigits digits cs) :
    ∀ c ∈ cs, isDecimalDigit c = true := by
  obtain ⟨-, h⟩ := h
  induction cs generalizing digits with
  | nil => simp
  | cons c cs ih =>
    rw [List.mapM_cons] at h
    obtain ⟨d, hd, h⟩ := Option.bind_eq_some_iff.mp h
    obtain ⟨ds, hds, -⟩ := Option.bind_eq_some_iff.mp h
    refine List.forall_mem_cons.mpr ⟨?_, ih hds⟩
    rw [isDecimalDigit, hd]
    rfl

/-- The characters that integers start with. -/
def StartsInteger (c : Char) : Prop := c = '(' ∨ c = '-' ∨ isDecimalDigit c = true

/-- The characters that integers end with. -/
def EndsInteger (c : Char) : Prop := c = ')' ∨ isDecimalDigit c = true

theorem IsInteger.starts {g : Grammar} {s : SignedDigits} {cs : List Char}
    (h : IsInteger g s cs) : ∃ c rest, cs = c :: rest ∧ StartsInteger c := by
  obtain ⟨opening, closing, ds, -, digits, rfl⟩ := h
  cases opening with
  | true => exact ⟨'(', _, rfl, .inl rfl⟩
  | false =>
    cases hneg : s.negative with
    | true => exact ⟨'-', _, rfl, .inr (.inl rfl)⟩
    | false =>
      obtain ⟨c, cs, rfl⟩ := List.exists_cons_of_ne_nil digits.1
      have digit := isDecimalDigit_of_isDigits digits c (List.mem_cons_self ..)
      exact ⟨c, _, rfl, .inr (.inr digit)⟩

theorem IsInteger.ends {g : Grammar} {s : SignedDigits} {cs : List Char}
    (h : IsInteger g s cs) : ∃ front c, cs = front ++ [c] ∧ EndsInteger c := by
  obtain ⟨opening, closing, ds, -, digits, rfl⟩ := h
  cases closing with
  | true => exact ⟨_, ')', rfl, .inl rfl⟩
  | false =>
    have split := List.dropLast_concat_getLast digits.1
    have digit := isDecimalDigit_of_isDigits digits _ (List.getLast_mem digits.1)
    refine ⟨only '(' opening ++ only '-' s.negative ++ ds.dropLast, ds.getLast digits.1, ?_,
      .inr digit⟩
    rw [List.append_assoc _ ds.dropLast, split]
    simp [only]

end FieldProgram.Address

/-!
# Texts

A text is a list of code points. Nearly all of them are characters. The others are halves of
surrogate pairs: no encoding of characters has them, but a format that writes code points as
numbers can put one into a text, where it stands alone.

* `ofString_inj`: a string is known from its text;
* `chars?_eq_some_iff`: the texts of characters are those without a lone half.
-/

namespace FieldProgram

/-- A code point: a character, or half of a surrogate pair, counted from the first half. -/
inductive Code
  | char (c : Char)
  | lone (half : Fin 2048)
  deriving DecidableEq, Repr

namespace Code

/-- The number of the first half of a surrogate pair. -/
def firstHalf : Nat := 0xd800

/-- The number of a code point. -/
def number : Code → Nat
  | .char c => c.toNat
  | .lone half => firstHalf + half

/-- The code point of a number below 0x110000. -/
def ofNumber (n : Nat) : Code :=
  if n.isValidChar then .char (Char.ofNat n) else .lone (Fin.ofNat 2048 (n - firstHalf))

/-- The character of a code point that has one. -/
def char? : Code → Option Char
  | .char c => some c
  | .lone _ => none

end Code

/-- A list of code points. -/
structure Text where
  codes : List Code := []
  deriving DecidableEq, Repr, Inhabited

namespace Text

/-! ## Strings as texts -/

def ofChars (cs : List Char) : Text := ⟨cs.map .char⟩

def ofString (s : String) : Text := ofChars s.toList

instance : Coe String Text := ⟨ofString⟩

/-- The characters of a text in which no half stands alone. -/
def chars? (t : Text) : Option (List Char) := t.codes.mapM Code.char?

/-- The string of a text in which no half stands alone. -/
def string? (t : Text) : Option String := t.chars?.map String.ofList

/-- The replacement character for each octet of a half that stands alone. -/
def replacedCode : Code → List Char
  | .char c => [c]
  | .lone _ => ['\ufffd', '\ufffd', '\ufffd']

/-- The text as a string, each of the three octets of a lone half replaced. -/
def replaced (t : Text) : String := String.ofList (t.codes.flatMap replacedCode)

/-! ## Parts -/

instance : Append Text := ⟨fun a b => ⟨a.codes ++ b.codes⟩⟩

def isEmpty (t : Text) : Bool := t.codes.isEmpty

/-- The texts of a list with a separator between them. -/
def intercalate (separator : Text) (ts : List Text) : Text :=
  ⟨separator.codes.intercalate (ts.map codes)⟩

/-! ## Order -/

def codesLe : List Code → List Code → Bool
  | [], _ => true
  | _ :: _, [] => false
  | a :: as, b :: bs => a.number < b.number || (a == b && codesLe as bs)

/-- Texts compared code point by code point. -/
def le (a b : Text) : Bool := codesLe a.codes b.codes

/-! ## Lemmas -/

theorem ofChars_inj {a b : List Char} : ofChars a = ofChars b ↔ a = b := by
  simp only [ofChars, mk.injEq]
  exact List.map_inj_right fun _ _ h => by simpa using h

theorem ofChars_append (a b : List Char) : ofChars (a ++ b) = ofChars a ++ ofChars b :=
  congrArg Text.mk List.map_append

@[simp] theorem ofString_inj {a b : String} : ofString a = ofString b ↔ a = b := by
  simp [ofString, ofChars_inj, String.toList_inj]

@[simp] theorem chars?_ofChars (cs : List Char) : (ofChars cs).chars? = some cs := by
  induction cs with
  | nil => rfl
  | cons c cs ih =>
    simp only [chars?, ofChars, List.map_cons, List.mapM_cons, Code.char?] at ih ⊢
    simp [ih]

theorem chars?_eq_some_iff {t : Text} {cs : List Char} : t.chars? = some cs ↔ t = ofChars cs := by
  constructor
  · obtain ⟨codes⟩ := t
    induction codes generalizing cs with
    | nil => intro h; simp [chars?] at h; subst h; rfl
    | cons c codes ih =>
      intro h
      cases c with
      | lone half => simp [chars?, Code.char?] at h
      | char c =>
        simp only [chars?, List.mapM_cons, Code.char?, Option.pure_def, Option.bind_eq_bind,
          Option.bind_some, Option.bind_eq_some_iff] at h
        obtain ⟨ds, hds, rfl⟩ := by simpa using h
        have := @ih ds hds
        simp_all [ofChars]
  · rintro rfl
    exact chars?_ofChars cs

theorem chars?_append (a b : Text) :
    (a ++ b).chars? = a.chars?.bind fun cs => b.chars?.map (cs ++ ·) := by
  show (a.codes ++ b.codes).mapM Code.char? = _
  rw [List.mapM_append, chars?, chars?]
  cases a.codes.mapM Code.char? with
  | none => rfl
  | some cs => cases b.codes.mapM Code.char? <;> rfl

@[simp] theorem string?_ofString (s : String) : (ofString s).string? = some s := by
  simp [string?, ofString]

end Text

end FieldProgram

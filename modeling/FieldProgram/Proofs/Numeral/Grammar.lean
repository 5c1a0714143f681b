import Mathlib.Data.Nat.Digits.Defs
import Mathlib.Data.String.Basic
import FieldProgram.Proofs.Numeral.Literal
import FieldProgram.Proofs.Related

/-!
# Which texts are integer literals

A literal is spelled by a minus sign if it is negative, the mark of its base, and digits of the base
with letters in either case. `Text.IsLiteral` says so without reading anything, and gives the
literal the positional value of its digits.

* `Literal.ofChars?_eq_some_iff`: a text is taken apart exactly as it is spelled;
* `integerOfText_eq_ok_iff`: the texts that are read, and as which integers;
* `integerOfText_shortDecimal`, `integerOfText_of_sameLetters`, `integerOfText_zeros`: printed
  integers, letters in another case, and zeros in front;
* `Document.integer_literalText`: all of this about the integers that documents hold as texts.
-/

namespace FieldProgram.Numeral

/-! ## Digits and marks -/

def Base.radix : Base → Nat
  | .decimal => 10
  | .hexadecimal => 16

/-- The character is a digit of the base. A letter may be small or capital. -/
def Base.IsDigit (base : Base) (c : Char) (d : Nat) : Prop :=
  d < base.radix ∧ (c = Nat.digitChar d ∨ c = (Nat.digitChar d).toUpper)

/-- What stands between the sign and the digits of a base. -/
def Base.marks : Base → List (List Char)
  | .decimal => [[]]
  | .hexadecimal => [['0', 'x'], ['0', 'X']]

/-- What stands in front of a literal. -/
def signOf (negative : Bool) : List Char := if negative then ['-'] else []

namespace Literal

/-- The characters are the mark of the base and the digits of the literal, at least one. -/
def MarkedBy (l : Literal) (cs : List Char) : Prop :=
  ∃ mark ∈ l.base.marks, ∃ ds, ds ≠ [] ∧ List.Forall₂ l.base.IsDigit ds l.digits ∧ cs = mark ++ ds

/-- The characters are the sign, the mark of the base and the digits of the literal. -/
def SpelledBy (l : Literal) (cs : List Char) : Prop :=
  ∃ us, l.MarkedBy us ∧ cs = signOf l.negative ++ us

/-- Decimal digits are limited in number, hexadecimal ones are not. -/
def WithinLimit (l : Literal) : Prop := l.base = .decimal → l.digits.length ≤ maxDigits

/-- The positional value of the digits, the last digit counting once, with the sign. -/
def number (l : Literal) : Int :=
  if l.negative then -(Nat.ofDigits l.base.radix l.digits.reverse : Nat)
  else (Nat.ofDigits l.base.radix l.digits.reverse : Nat)

end Literal

/-! ## Reading a digit -/

theorem Base.isDigit_decimal_iff {c : Char} {d : Nat} :
    Base.decimal.IsDigit c d ↔ d < 10 ∧ c = Nat.digitChar d := by
  refine and_congr_right fun lt => or_iff_left_of_imp ?_
  have plain : ∀ d : Fin 10, (Nat.digitChar d).toUpper = Nat.digitChar d := by decide
  exact fun same => same.trans (plain ⟨d, lt⟩)

theorem toNat_letterDigit {k : Nat} (lt : k < 6) :
    (Nat.digitChar (k + 10)).toNat = k + 97 ∧ (Nat.digitChar (k + 10)).toUpper.toNat = k + 65 := by
  have each : ∀ k : Fin 6, (Nat.digitChar (k + 10)).toNat = k + 97 ∧
      (Nat.digitChar (k + 10)).toUpper.toNat = k + 65 := by decide
  exact each ⟨k, lt⟩

theorem isDigit_letter {c : Char} {k : Nat} (lt : k < 6)
    (code : c.toNat = k + 97 ∨ c.toNat = k + 65) : Base.hexadecimal.IsDigit c (k + 10) := by
  obtain ⟨small, capital⟩ := toNat_letterDigit lt
  refine ⟨Nat.add_lt_add_right lt 10, ?_⟩
  rcases code with code | code
  · exact .inl (Char.toNat_inj.mp (code.trans small.symm))
  · exact .inr (Char.toNat_inj.mp (code.trans capital.symm))

theorem hexValue?_toUpper {d : Nat} (lt : d < 16) :
    hexValue? (Nat.digitChar d).toUpper = some d := by
  have each : ∀ d : Fin 16, hexValue? (Nat.digitChar d).toUpper = some d.val := by decide
  exact each ⟨d, lt⟩

theorem hexValue?_eq_some_iff {c : Char} {d : Nat} :
    hexValue? c = some d ↔ Base.hexadecimal.IsDigit c d := by
  constructor
  · intro h
    unfold hexValue? at h
    split at h
    · rename_i between
      have read : asciiDigit? c = some d := by rw [asciiDigit?, if_pos between]; exact h
      obtain ⟨lt, same⟩ := asciiDigit?_eq_some_iff.mp read
      exact ⟨Nat.lt_of_lt_of_le lt (by decide), .inl same⟩
    · split at h
      · rename_i between
        obtain rfl := Option.some.inj h
        have least : 97 ≤ c.toNat := between.1
        have most : c.toNat ≤ 102 := between.2
        have first : 'a'.toNat = 97 := rfl
        exact isDigit_letter (by omega) (.inl (by omega))
      · split at h
        · rename_i between
          obtain rfl := Option.some.inj h
          have least : 65 ≤ c.toNat := between.1
          have most : c.toNat ≤ 70 := between.2
          have first : 'A'.toNat = 65 := rfl
          exact isDigit_letter (by omega) (.inr (by omega))
        · cases h
  · rintro ⟨lt, rfl | rfl⟩
    · exact hexValue?_digitChar lt
    · exact hexValue?_toUpper lt

theorem Base.digit?_eq_some_iff {base : Base} {c : Char} {d : Nat} :
    base.digit? c = some d ↔ base.IsDigit c d := by
  cases base with
  | decimal => exact asciiDigit?_eq_some_iff.trans isDigit_decimal_iff.symm
  | hexadecimal => exact hexValue?_eq_some_iff

/-- A letter is in one of its two cases. -/
theorem eq_or_eq_toUpper {c e : Char} (lower : c.toLower = e) : c = e ∨ c = e.toUpper := by
  subst lower
  by_cases upper : c.val ≥ 'A'.val ∧ c.val ≤ 'Z'.val
  · right
    have least : 65 ≤ c.toNat := UInt32.le_iff_toNat_le.mp upper.1
    have most : c.toNat ≤ 90 := UInt32.le_iff_toNat_le.mp upper.2
    have each : ∀ k : Fin 26,
        Char.ofNat (k + 65) = (Char.ofNat (k + 65)).toLower.toUpper := by decide
    have same : c = Char.ofNat (c.toNat - 65 + 65) := by
      rw [Nat.sub_add_cancel least, Char.ofNat_toNat]
    rw [same]
    exact each ⟨c.toNat - 65, by omega⟩
  · left
    have plain : c.toLower = c := dif_neg upper
    exact plain.symm

theorem Base.IsDigit.toLower {base : Base} {c : Char} {d : Nat} (h : base.IsDigit c d) :
    c.toLower = Nat.digitChar d := by
  have each : ∀ d : Fin 16, (Nat.digitChar d).toLower = Nat.digitChar d ∧
      (Nat.digitChar d).toUpper.toLower = Nat.digitChar d := by decide
  have lt : d < 16 := Nat.lt_of_lt_of_le h.1 (by cases base <;> decide)
  rcases h.2 with rfl | rfl
  · exact (each ⟨d, lt⟩).1
  · exact (each ⟨d, lt⟩).2

/-- Whether a character is a digit, and which, does not depend on its case. -/
theorem Base.IsDigit.sameLetter {base : Base} {c c' : Char} {d : Nat} (h : base.IsDigit c d)
    (same : c.toLower = c'.toLower) : base.IsDigit c' d :=
  ⟨h.1, eq_or_eq_toUpper (same.symm.trans h.toLower)⟩

/-! ## Taking a text apart -/

namespace Literal

theorem digitsOf?_eq_some_iff {base : Base} {cs : List Char} {ds : List Nat} :
    digitsOf? base cs = some ds ↔ cs ≠ [] ∧ List.Forall₂ base.IsDigit cs ds := by
  unfold digitsOf?
  split
  · rename_i none
    simp [none]
  · rename_i some_digit
    rw [mapM_eq_some_iff]
    simp only [Base.digit?_eq_some_iff]
    exact (and_iff_right some_digit).symm

theorem digitsOf?_markedBy {base : Base} {negative : Bool} {l : Literal} (mark : List Char)
    {cs : List Char} (hmark : mark ∈ base.marks)
    (h : (digitsOf? base cs).map (⟨negative, base, ·⟩) = some l) :
    l.negative = negative ∧ l.MarkedBy (mark ++ cs) := by
  obtain ⟨ds, hds, rfl⟩ := Option.map_eq_some_iff.mp h
  obtain ⟨some_digit, digits⟩ := digitsOf?_eq_some_iff.mp hds
  exact ⟨rfl, mark, hmark, cs, some_digit, digits, rfl⟩

/-- A decimal numeral does not look like a mark. -/
theorem not_mark_of_digits {c c' : Char} {cs : List Char} {ds : List Nat}
    (digits : List.Forall₂ Base.decimal.IsDigit (c :: c' :: cs) ds) : c' ≠ 'x' ∧ c' ≠ 'X' := by
  obtain _ | ⟨-, _ | ⟨second, -⟩⟩ := digits
  obtain ⟨lt, rfl⟩ := Base.isDigit_decimal_iff.mp second
  have each : ∀ d : Fin 10, Nat.digitChar d ≠ 'x' ∧ Nat.digitChar d ≠ 'X' := by decide
  exact each ⟨_, lt⟩

theorem unsigned?_eq_some_iff {negative : Bool} {cs : List Char} {l : Literal} :
    unsigned? negative cs = some l ↔ l.negative = negative ∧ l.MarkedBy cs := by
  constructor
  · intro h
    unfold unsigned? at h
    split at h
    · exact digitsOf?_markedBy ['0', 'x'] (by decide) h
    · exact digitsOf?_markedBy ['0', 'X'] (by decide) h
    · exact digitsOf?_markedBy [] (by decide) h
  · obtain ⟨negative', base, ds⟩ := l
    rintro ⟨rfl, mark, hmark, us, some_digit, digits, rfl⟩
    have read := digitsOf?_eq_some_iff.mpr ⟨some_digit, digits⟩
    cases base with
    | hexadecimal =>
      rcases List.mem_pair.mp hmark with rfl | rfl
      · show (digitsOf? .hexadecimal us).map _ = _
        rw [read]
        rfl
      · show (digitsOf? .hexadecimal us).map _ = _
        rw [read]
        rfl
    | decimal =>
      obtain rfl := List.mem_singleton.mp hmark
      rw [List.nil_append]
      unfold unsigned?
      split
      · exact absurd rfl (not_mark_of_digits digits).1
      · exact absurd rfl (not_mark_of_digits digits).2
      · rw [read]
        rfl

theorem MarkedBy.not_sign {l : Literal} {cs : List Char} (h : l.MarkedBy cs) :
    cs.head? ≠ some '-' := by
  obtain ⟨negative, base, ds⟩ := l
  obtain ⟨mark, hmark, us, some_digit, digits, rfl⟩ := h
  cases base with
  | hexadecimal =>
    rcases List.mem_pair.mp hmark with rfl | rfl
    · simp
    · simp
  | decimal =>
    obtain rfl := List.mem_singleton.mp hmark
    obtain _ | ⟨first, -⟩ := digits
    · exact absurd rfl some_digit
    · obtain ⟨lt, rfl⟩ := Base.isDigit_decimal_iff.mp first
      have each : ∀ d : Fin 10, Nat.digitChar d ≠ '-' := by decide
      exact fun same => each ⟨_, lt⟩ (Option.some.inj same)

theorem ofChars?_eq_some_iff {cs : List Char} {l : Literal} :
    ofChars? cs = some l ↔ l.SpelledBy cs := by
  unfold ofChars?
  split
  · rename_i us
    rw [unsigned?_eq_some_iff]
    constructor
    · rintro ⟨negative, marked⟩
      exact ⟨us, marked, by rw [negative]; rfl⟩
    · rintro ⟨us', marked, split⟩
      cases negative : l.negative with
      | true =>
        rw [negative] at split
        obtain rfl := (List.cons.inj split).2
        exact ⟨rfl, marked⟩
      | false =>
        -- Neither a mark nor a digit begins with the sign that was taken off.
        rw [negative] at split
        exact absurd (congrArg List.head? split).symm marked.not_sign
  · rename_i not_sign
    rw [unsigned?_eq_some_iff]
    constructor
    · rintro ⟨negative, marked⟩
      exact ⟨cs, marked, by rw [negative]; rfl⟩
    · rintro ⟨us, marked, rfl⟩
      cases negative : l.negative with
      | true => exact absurd (by rw [negative]; rfl) (not_sign us)
      | false => exact ⟨rfl, marked⟩

/-! ## Values -/

/-- Reading digits from the front gives what they count from the back. -/
theorem ofDigits_eq (base : Nat) (ds : List Nat) :
    ofDigits base ds = Nat.ofDigits base ds.reverse := by
  induction ds with
  | nil => rfl
  | cons d ds ih => rw [ofDigits_cons, Nat.ofDigits_reverse_cons, ih, Nat.mul_comm, Nat.add_comm]

theorem magnitude_eq_ok_iff {l : Literal} {n : Nat} :
    l.magnitude = .ok n ↔
      l.WithinLimit ∧ n = Nat.ofDigits l.base.radix l.digits.reverse := by
  obtain ⟨negative, base, ds⟩ := l
  cases base with
  | hexadecimal =>
    show Except.ok (ofDigits 16 ds) = .ok n ↔ _
    rw [ofDigits_eq, Except.ok.injEq]
    constructor
    · rintro rfl
      exact ⟨by rintro ⟨⟩, rfl⟩
    · exact fun h => h.2.symm
  | decimal =>
    show ofDecimalDigits ds = .ok n ↔ _
    rw [ofDecimalDigits_eq_ok_iff, ofDigits_eq]
    constructor
    · rintro ⟨short, rfl⟩
      exact ⟨fun _ => short, rfl⟩
    · rintro ⟨short, rfl⟩
      exact ⟨short rfl, rfl⟩

theorem value_eq_ok_iff {l : Literal} {n : Int} :
    l.value = .ok n ↔ l.WithinLimit ∧ n = l.number := by
  rw [value, Except.map_eq_ok]
  constructor
  · rintro ⟨_, lifted, rfl⟩
    obtain ⟨m, hm, same⟩ := Except.bind_eq_ok.mp lifted
    obtain rfl := Except.ok.inj same
    obtain ⟨within, rfl⟩ := magnitude_eq_ok_iff.mp hm
    exact ⟨within, rfl⟩
  · rintro ⟨within, rfl⟩
    have size := magnitude_eq_ok_iff.mpr ⟨within, rfl⟩
    exact ⟨_, Except.bind_eq_ok.mpr ⟨_, size, rfl⟩, rfl⟩

end Literal

end FieldProgram.Numeral

namespace FieldProgram

open Numeral

/-! ## Texts -/

/-- The text spells an integer within the limit. -/
def Text.IsLiteral (t : Text) (n : Int) : Prop :=
  ∃ l : Literal, (∃ cs, t = Text.ofChars cs ∧ l.SpelledBy cs) ∧ l.WithinLimit ∧ n = l.number

theorem integerOfText_eq_ok_iff {t : Text} {n : Int} :
    integerOfText t = .ok n ↔ t.IsLiteral n := by
  have spelled : ∀ l, t.chars?.bind Literal.ofChars? = some l ↔
      ∃ cs, t = Text.ofChars cs ∧ l.SpelledBy cs := by
    intro l
    simp only [Option.bind_eq_some_iff, Text.chars?_eq_some_iff, Literal.ofChars?_eq_some_iff]
  unfold integerOfText
  constructor
  · intro h
    split at h
    · cases h
    · rename_i l hl
      obtain ⟨within, value⟩ := Literal.value_eq_ok_iff.mp (Except.mapError_eq_ok.mp h)
      exact ⟨l, (spelled l).mp hl, within, value⟩
  · rintro ⟨l, hl, within, value⟩
    rw [(spelled l).mpr hl]
    exact Except.mapError_eq_ok.mpr (Literal.value_eq_ok_iff.mpr ⟨within, value⟩)

/-! ## Printed integers -/

theorem isDigit_digitChar {base : Base} {ds : List Nat} (lt : ∀ d ∈ ds, d < base.radix) :
    List.Forall₂ base.IsDigit (ds.map Nat.digitChar) ds := by
  rw [List.forall₂_map_left_iff, List.forall₂_same]
  exact fun d hd => ⟨lt d hd, .inl rfl⟩

/-- The decimal text of an integer within the limit reads back. -/
theorem integerOfText_shortDecimal {n : Int}
    (short : (decimalDigits n.natAbs).length ≤ maxDigits) :
    integerOfText (shortDecimal n) = .ok n := by
  have lt := digits_lt (by decide : 0 < 10) n.natAbs
  have some_digit : decimalDigits n.natAbs ≠ [] := by simp [decimalDigits, digits_ne_nil]
  have marked : Literal.MarkedBy ⟨n < 0, .decimal, digits 10 n.natAbs⟩ (decimalDigits n.natAbs) :=
    ⟨[], List.mem_singleton_self _, _, some_digit, isDigit_digitChar lt, rfl⟩
  refine integerOfText_eq_ok_iff.mpr ⟨_, ⟨_, rfl, _, marked, ?_⟩, fun _ => ?_, ?_⟩
  · simp [shortDecimal, signOf]
  · rwa [length_decimalDigits] at short
  · have size : Nat.ofDigits 10 (digits 10 n.natAbs).reverse = n.natAbs := by
      rw [← Literal.ofDigits_eq, ofDigits_digits (by decide)]
    simp only [Literal.number, Base.radix, size, decide_eq_true_eq]
    split
    · omega
    · omega

/-! ## Spellings of one integer -/

theorem isDigit_sameLetters {base : Base} {cs cs' : List Char} {ds : List Nat}
    (digits : List.Forall₂ base.IsDigit cs ds)
    (same : cs.map Char.toLower = cs'.map Char.toLower) : List.Forall₂ base.IsDigit cs' ds := by
  induction digits generalizing cs' with
  | nil =>
    obtain rfl := List.map_eq_nil_iff.mp same.symm
    exact .nil
  | cons first _ ih =>
    obtain ⟨c', cs', rfl, head, tail⟩ := List.map_eq_cons_iff.mp same.symm
    exact .cons (first.sameLetter head.symm) (ih tail.symm)

theorem sign_sameLetters {negative : Bool} {cs : List Char}
    (same : cs.map Char.toLower = (signOf negative).map Char.toLower) : cs = signOf negative := by
  cases negative with
  | false => exact List.map_eq_nil_iff.mp same
  | true =>
    obtain ⟨c, rest, rfl, head, tail⟩ := List.map_eq_cons_iff.mp same
    obtain rfl := List.map_eq_nil_iff.mp tail
    obtain rfl | rfl := eq_or_eq_toUpper head
    · rfl
    · rfl

theorem mark_sameLetters {base : Base} {mark cs : List Char} (hmark : mark ∈ base.marks)
    (same : cs.map Char.toLower = mark.map Char.toLower) : cs ∈ base.marks := by
  cases base with
  | decimal =>
    obtain rfl := List.mem_singleton.mp hmark
    obtain rfl := List.map_eq_nil_iff.mp same
    exact hmark
  | hexadecimal =>
    have lower : mark.map Char.toLower = ['0', 'x'] := by
      rcases List.mem_pair.mp hmark with rfl | rfl
      · decide
      · decide
    rw [lower] at same
    obtain ⟨zero, rest, rfl, head, tail⟩ := List.map_eq_cons_iff.mp same
    obtain ⟨letter, rest, rfl, head', tail⟩ := List.map_eq_cons_iff.mp tail
    obtain rfl := List.map_eq_nil_iff.mp tail
    obtain rfl | rfl := eq_or_eq_toUpper head
    all_goals
      obtain rfl | rfl := eq_or_eq_toUpper head'
      · decide
      · decide

/-- Letters in another case spell the same literal. -/
theorem Literal.SpelledBy.sameLetters {l : Literal} {cs cs' : List Char} (h : l.SpelledBy cs)
    (same : cs'.map Char.toLower = cs.map Char.toLower) : l.SpelledBy cs' := by
  obtain ⟨_, ⟨mark, hmark, ds, some_digit, digits, rfl⟩, rfl⟩ := h
  rw [List.map_append, List.map_append] at same
  obtain ⟨sign', us', rfl, hsign, same⟩ := List.map_eq_append_iff.mp same
  obtain ⟨mark', ds', rfl, hmark', hds⟩ := List.map_eq_append_iff.mp same
  have some_digit' : ds' ≠ [] := by
    rintro rfl
    exact some_digit (List.map_eq_nil_iff.mp hds.symm)
  exact ⟨mark' ++ ds', ⟨mark', mark_sameLetters hmark hmark', ds', some_digit',
    isDigit_sameLetters digits hds.symm, rfl⟩, by rw [sign_sameLetters hsign]⟩

theorem integerOfText_of_sameLetters {cs cs' : List Char}
    (same : cs'.map Char.toLower = cs.map Char.toLower) {n : Int}
    (h : integerOfText (Text.ofChars cs) = .ok n) : integerOfText (Text.ofChars cs') = .ok n := by
  obtain ⟨l, ⟨_, text, spelled⟩, within, value⟩ := integerOfText_eq_ok_iff.mp h
  obtain rfl := Text.ofChars_inj.mp text
  have spelled' := Literal.SpelledBy.sameLetters spelled same
  exact integerOfText_eq_ok_iff.mpr ⟨l, ⟨_, rfl, spelled'⟩, within, value⟩

/-- Zeros in front of the digits count for the limit and for nothing else. -/
theorem integerOfText_zeros {base : Base} {mark ds : List Char} (negative : Bool) (zeros : Nat)
    (hmark : mark ∈ base.marks) (some_digit : ds ≠ [])
    (digits : ∀ c ∈ ds, ∃ d, base.IsDigit c d)
    (within : base = .decimal → zeros + ds.length ≤ maxDigits) :
    integerOfText (Text.ofChars
        (signOf negative ++ (mark ++ (List.replicate zeros '0' ++ ds)))) =
      integerOfText (Text.ofChars (signOf negative ++ (mark ++ ds))) := by
  obtain ⟨ns, hns⟩ := exists_forall₂_iff.mpr digits
  have zero : base.IsDigit '0' 0 := ⟨by cases base <;> decide, .inl rfl⟩
  have front : List.Forall₂ base.IsDigit (List.replicate zeros '0') (List.replicate zeros 0) := by
    induction zeros with
    | zero => exact .nil
    | succ k ih => exact .cons zero (ih fun decimal => by have := within decimal; omega)
  have plain : integerOfText (Text.ofChars (signOf negative ++ (mark ++ ds))) =
      .ok (Literal.number ⟨negative, base, ns⟩) := by
    refine integerOfText_eq_ok_iff.mpr ⟨⟨negative, base, ns⟩,
      ⟨_, rfl, _, ⟨mark, hmark, ds, some_digit, hns, rfl⟩, rfl⟩, fun decimal => ?_, rfl⟩
    have := within decimal
    have := hns.length_eq
    show ns.length ≤ maxDigits
    omega
  rw [plain]
  refine integerOfText_eq_ok_iff.mpr ⟨⟨negative, base, List.replicate zeros 0 ++ ns⟩,
    ⟨_, rfl, _, ⟨mark, hmark, _, by simp [some_digit], List.rel_append front hns, rfl⟩, rfl⟩,
    fun decimal => ?_, ?_⟩
  · have := within decimal
    have := hns.length_eq
    show (List.replicate zeros 0 ++ ns).length ≤ maxDigits
    rw [List.length_append, List.length_replicate]
    omega
  · simp [Literal.number]

/-! ## Documents -/

namespace Document

theorem integer_literalText :
    (∀ (t : Text) (n : Int), (str t).integer = .ok n ↔ t.IsLiteral n) ∧
    (∀ t : Text, (∃ fault, (str t).integer = .error fault) ↔ ∀ n, ¬ t.IsLiteral n) ∧
    (∀ n : Int, (str (hexText n)).integer = .ok n) ∧
    (∀ n : Int, n.natAbs < 10 ^ maxDigits →
      ∃ s, decimalText n = .ok s ∧ (str s).integer = .ok n) ∧
    (∀ cs cs' : List Char, cs'.map Char.toLower = cs.map Char.toLower → ∀ n,
      (str (.ofChars cs')).integer = .ok n ↔ (str (.ofChars cs)).integer = .ok n) ∧
    ∀ (base : Base) (mark ds : List Char) (negative : Bool) (zeros : Nat), mark ∈ base.marks →
      ds ≠ [] → (∀ c ∈ ds, ∃ d, base.IsDigit c d) →
      (base = .decimal → zeros + ds.length ≤ maxDigits) →
      (str (.ofChars (signOf negative ++ (mark ++ (List.replicate zeros '0' ++ ds))))).integer =
        (str (.ofChars (signOf negative ++ (mark ++ ds)))).integer := by
  have read : ∀ (t : Text) (n : Int), (str t).integer = .ok n ↔ t.IsLiteral n :=
    fun t n => integerOfText_eq_ok_iff
  refine ⟨read, fun t => ?_, integerOfText_hexText, fun n small => ?_, fun cs cs' same n => ?_,
    fun base mark ds negative zeros => integerOfText_zeros negative zeros⟩
  · simp only [← read]
    cases (str t).integer <;> simp
  · have short : (decimalDigits n.natAbs).length ≤ maxDigits := by
      rw [length_decimalDigits]
      exact (length_digits_le_iff (by decide) (by decide)).mpr small
    exact ⟨_, decimalText_eq_ok_iff.mpr ⟨short, rfl⟩, integerOfText_shortDecimal short⟩
  · exact ⟨integerOfText_of_sameLetters same.symm, integerOfText_of_sameLetters same⟩

theorem integer_literalText_capital :
    (∃ s, decimalText (-5) = .ok s ∧ (str s).integer = .ok (-5)) ∧
      (str (.ofChars ['0', 'X', '0', '0', 'f', 'F'])).integer = .ok 255 := by
  obtain ⟨-, -, -, printed, letters, zeros⟩ := integer_literalText
  have small : (-5 : Int).natAbs < 10 ^ maxDigits :=
    Nat.lt_of_lt_of_le (by decide : 5 < 10 ^ 1) (Nat.pow_le_pow_right (by decide) (by decide))
  have digits : ∀ c ∈ ['f', 'F'], ∃ d, Base.hexadecimal.IsDigit c d :=
    List.forall_mem_cons.mpr ⟨⟨15, by decide, .inl rfl⟩,
      List.forall_mem_singleton.mpr ⟨15, by decide, .inr rfl⟩⟩
  have plain : (str (.ofChars ['0', 'x', 'f', 'f'])).integer = .ok 255 := rfl
  have capital := (letters ['0', 'x', 'f', 'f'] ['0', 'X', 'f', 'F'] (by decide) 255).mpr plain
  have padded := zeros .hexadecimal ['0', 'X'] ['f', 'F'] false 2 (by decide) (by decide) digits
    (by rintro ⟨⟩)
  exact ⟨printed (-5) small, padded.trans capital⟩

end Document

end FieldProgram

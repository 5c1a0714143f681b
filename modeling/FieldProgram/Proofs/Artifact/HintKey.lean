import FieldProgram.Artifact.Sections
import FieldProgram.Proofs.Document.Short
import FieldProgram.Proofs.Numeral.Literal

/-!
# Keys of hints

A key of hints stands for a program counter if it is a row of ASCII digits, however long. Reading it
fails beyond the digit limit.

* `hintKey_eq_ok_iff`: the keys that are read, and as what;
* `hintKey_of_overlong`, `hintKey_of_not_denotes`: what becomes of the others.
-/

namespace FieldProgram

open Numeral

/-- The text is a row of decimal digits, at least one. -/
def Text.IsNumeral (t : Text) (ds : List Nat) : Prop :=
  ds ≠ [] ∧ (∀ d ∈ ds, d < 10) ∧ t = Text.ofChars (ds.map Nat.digitChar)

/-- The text is a row of decimal digits that stand for the number. -/
def Text.Denotes (t : Text) (n : Int) : Prop :=
  ∃ ds, t.IsNumeral ds ∧ n = (ofDigits 10 ds : Nat)

/-- The text is a row of more decimal digits than are read. -/
def Text.Overlong (t : Text) : Prop := (∃ n, t.Denotes n) ∧ maxDigits < t.codes.length

namespace Text

theorem isNumeral_iff {t : Text} {ds : List Nat} :
    t.IsNumeral ds ↔ ds ≠ [] ∧ t.chars?.bind (·.mapM asciiDigit?) = some ds := by
  refine and_congr_right fun _ => ?_
  rw [Option.bind_eq_some_iff]
  simp only [mapM_asciiDigit?_eq_some_iff, chars?_eq_some_iff]
  constructor
  · rintro ⟨lt, rfl⟩
    exact ⟨_, rfl, lt, rfl⟩
  · rintro ⟨_, rfl, lt, rfl⟩
    exact ⟨lt, rfl⟩

theorem IsNumeral.unique {t : Text} {ds es : List Nat} (h : t.IsNumeral ds)
    (h' : t.IsNumeral es) : ds = es :=
  Option.some.inj ((isNumeral_iff.mp h).2.symm.trans (isNumeral_iff.mp h').2)

theorem IsNumeral.length_codes {t : Text} {ds : List Nat} (h : t.IsNumeral ds) :
    t.codes.length = ds.length := by
  obtain ⟨-, -, rfl⟩ := h
  simp [ofChars]

theorem Denotes.unique {t : Text} {n m : Int} (h : t.Denotes n) (h' : t.Denotes m) : n = m := by
  obtain ⟨ds, hds, rfl⟩ := h
  obtain ⟨es, hes, rfl⟩ := h'
  rw [hds.unique hes]

theorem Denotes.nonneg {t : Text} {n : Int} (h : t.Denotes n) : 0 ≤ n := by
  obtain ⟨ds, -, rfl⟩ := h
  exact Int.natCast_nonneg _

theorem Denotes.short {t : Text} {n : Int} (h : t.Denotes n)
    (length : t.codes.length ≤ maxDigits) : Document.ShortInteger n := by
  obtain ⟨ds, hds, rfl⟩ := h
  rw [hds.length_codes] at length
  rw [Document.ShortInteger, Int.natAbs_natCast]
  exact decimalDigits_ofDigits_le hds.2.1 length

/-- The decimal text of a number from zero on denotes it. -/
theorem denotes_shortDecimal {n : Int} (nonneg : 0 ≤ n) :
    (shortDecimal n : Text).Denotes n := by
  have lt := digits_lt (by decide : 0 < 10) n.natAbs
  refine ⟨digits 10 n.natAbs, ⟨digits_ne_nil _ _, lt, ?_⟩, ?_⟩
  · have unsigned : ¬ n < 0 := by omega
    simp [shortDecimal, unsigned, ofString, decimalDigits]
  · rw [ofDigits_digits (by decide)]
    omega

end Text

namespace Artifact

/-- Of a numeral only the number of digits can be refused. -/
theorem hintKey_of_isNumeral {key : Text} {ds : List Nat} (h : key.IsNumeral ds) :
    hintKey key = ((ofDecimalDigits ds).mapError .limit).map fun n => (n : Int) := by
  obtain ⟨some_digit, digits⟩ := Text.isNumeral_iff.mp h
  rw [hintKey, digits]
  cases ds with
  | nil => exact absurd rfl some_digit
  | cons d ds => rfl

theorem hintKey_of_denotes {key : Text} {n : Int} (h : key.Denotes n)
    (length : key.codes.length ≤ maxDigits) : hintKey key = .ok n := by
  obtain ⟨ds, hds, rfl⟩ := h
  rw [hds.length_codes] at length
  rw [hintKey_of_isNumeral hds, ofDecimalDigits, if_pos length]
  rfl

theorem hintKey_of_overlong {key : Text} (h : key.Overlong) :
    ∃ l, hintKey key = .error (.limit l) := by
  obtain ⟨⟨_, ds, hds, rfl⟩, length⟩ := h
  rw [hds.length_codes] at length
  rw [hintKey_of_isNumeral hds, ofDecimalDigits, if_neg (Nat.not_le.mpr length)]
  exact ⟨_, rfl⟩

theorem hintKey_of_not_denotes {key : Text} (h : ¬ ∃ n, key.Denotes n) :
    hintKey key = .error (.rejected (.badHintKey key)) := by
  unfold hintKey
  split
  · rfl
  · rfl
  · rename_i ds not_nil hds
    exact absurd ⟨_, ds, Text.isNumeral_iff.mpr ⟨fun e => not_nil (e ▸ rfl), hds⟩, rfl⟩ h

theorem hintKey_eq_ok_iff {key : Text} {n : Int} :
    hintKey key = .ok n ↔ key.Denotes n ∧ key.codes.length ≤ maxDigits := by
  constructor
  · intro h
    by_cases denotes : ∃ m, key.Denotes m
    · obtain ⟨m, hm⟩ := denotes
      by_cases length : key.codes.length ≤ maxDigits
      · obtain rfl := Except.ok.inj (h.symm.trans (hintKey_of_denotes hm length))
        exact ⟨hm, length⟩
      · obtain ⟨l, hl⟩ := hintKey_of_overlong ⟨⟨m, hm⟩, Nat.not_le.mp length⟩
        cases h.symm.trans hl
    · cases h.symm.trans (hintKey_of_not_denotes denotes)
  · rintro ⟨denotes, length⟩
    exact hintKey_of_denotes denotes length

end Artifact

end FieldProgram

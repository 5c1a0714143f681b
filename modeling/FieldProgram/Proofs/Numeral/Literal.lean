import FieldProgram.Document.Integer
import FieldProgram.Proofs.Numeral.Length
import FieldProgram.Proofs.Outcome
import FieldProgram.Proofs.Related

/-!
# Written integers read back

* `integerOfText_hexText`: the hexadecimal text of an integer is a literal for it;
* `mapM_digitChar`: written digits read back, in any base whose digits do;
* `mapM_asciiDigit?_eq_some_iff`: nothing but written digits reads as decimal digits.
-/

namespace FieldProgram.Numeral

theorem mapM_digitChar {base : Nat} {read : Char → Option Nat}
    (digit : ∀ d, d < base → read (Nat.digitChar d) = some d) {ds : List Nat}
    (h : ∀ d ∈ ds, d < base) : (ds.map Nat.digitChar).mapM read = some ds := by
  rw [mapM_eq_some_iff, List.forall₂_map_left_iff, List.forall₂_same]
  exact fun d hd => digit d (h d hd)

theorem asciiDigit?_eq_some_iff {c : Char} {d : Nat} :
    asciiDigit? c = some d ↔ d < 10 ∧ c = Nat.digitChar d := by
  constructor
  · intro h
    unfold asciiDigit? at h
    split at h
    · rename_i between
      obtain rfl := Option.some.inj h
      have least : 48 ≤ c.toNat := between.1
      have most : c.toNat ≤ 57 := between.2
      have zero : '0'.toNat = 48 := rfl
      refine ⟨by omega, Char.toNat_inj.mp ?_⟩
      rw [Nat.toNat_digitChar_of_lt_ten (by omega)]
      omega
    · cases h
  · rintro ⟨lt, rfl⟩
    exact asciiDigit?_digitChar lt

theorem mapM_asciiDigit?_eq_some_iff {cs : List Char} {ds : List Nat} :
    cs.mapM asciiDigit? = some ds ↔ (∀ d ∈ ds, d < 10) ∧ cs = ds.map Nat.digitChar := by
  rw [mapM_eq_some_iff]
  simp only [asciiDigit?_eq_some_iff]
  constructor
  · intro h
    refine ⟨fun d hd => ?_, ?_⟩
    · obtain ⟨_, -, lt, -⟩ := exists_left_of_forall₂ h d hd
      exact lt
    · have written := h.imp fun c d digit => digit.2
      rwa [← List.forall₂_map_right_iff, List.forall₂_eq_eq_eq] at written
  · rintro ⟨lt, rfl⟩
    rw [List.forall₂_map_left_iff, List.forall₂_same]
    exact fun d hd => ⟨lt d hd, rfl⟩

namespace Literal

theorem digitsOf?_hexDigits (n : Nat) :
    digitsOf? .hexadecimal (hexDigits n) = some (Numeral.digits 16 n) := by
  have some_digit : hexDigits n ≠ [] := by simp [hexDigits, digits_ne_nil]
  have lt := digits_lt (by decide : 0 < 16) n
  rw [digitsOf?, if_neg some_digit]
  exact mapM_digitChar (fun _ h => hexValue?_digitChar h) lt

theorem ofChars?_hexText (n : Int) :
    ofChars? (hexText n).toList = some ⟨n < 0, .hexadecimal, Numeral.digits 16 n.natAbs⟩ := by
  by_cases h : n < 0 <;> simp [hexText, h, ofChars?, unsigned?, digitsOf?_hexDigits]

end Literal

theorem integerOfText_hexText (n : Int) : integerOfText (hexText n) = .ok n := by
  unfold integerOfText
  rw [Text.ofString, Text.chars?_ofChars, Option.bind_some, Literal.ofChars?_hexText]
  have size : Literal.magnitude ⟨n < 0, .hexadecimal, digits 16 n.natAbs⟩ = .ok n.natAbs :=
    congrArg _ (ofDigits_digits (by decide) n.natAbs)
  refine Except.mapError_eq_ok.mpr (Except.map_eq_ok.mpr
    ⟨(n.natAbs : Int), Except.bind_eq_ok.mpr ⟨n.natAbs, size, rfl⟩, ?_⟩)
  by_cases h : n < 0
  · simp only [h, decide_true, if_true]
    omega
  · simp only [h, decide_false, Bool.false_eq_true, if_false]
    omega

end FieldProgram.Numeral

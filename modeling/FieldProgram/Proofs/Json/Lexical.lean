import FieldProgram.Proofs.Json.Grammar

/-!
# The characters of strings, words and numbers

Strings are spelled one unit at a time: a character that stands for itself, an escape of one letter,
or one of four digits. Words and numbers have letters, digits, signs and points only.

* `units_of_string`: the units of a string, which are its code points where all of them are visible;
* `startsPlain_of_plainValue`: the characters of a word or a number.
-/

namespace FieldProgram.Json

open Numeral

variable {c : Code} {cs mid rest units : List Code}

/-! ## Strings -/

/-- The code points start with a string from behind its opening quote, spelled by units. -/
inductive Units : (cs units rest : List Code) → Prop
  | close (rest : List Code) : Units (.char '"' :: rest) [] rest
  | itself {c : Code} {r units rest : List Code} (high : 0x20 ≤ c.number)
    (no_quote : c ≠ .char '"') (no_escape : c ≠ .char '\\') (others : Units r units rest) :
    Units (c :: r) (c :: units) rest
  | letter {e ch : Char} {r units rest : List Code} (escape : simpleEscape? e = some ch)
    (others : Units r units rest) :
    Units (.char '\\' :: .char e :: r) (.char ch :: units) rest
  | digits {a b c d : Code} {ds : List Nat} {r units rest : List Code}
    (hex : [a, b, c, d].mapM hexCode? = some ds) (others : Units r units rest) :
    Units (.char '\\' :: .char 'u' :: a :: b :: c :: d :: r)
      (.ofNumber (ofDigits 16 ds) :: units) rest

/-- The code point is a character that leaves ink, of the first 128. -/
def Visible (c : Code) : Prop := 0x20 < c.number ∧ c.number < 0x7f

instance : Decidable (Visible c) := inferInstanceAs (Decidable (_ ∧ _))

theorem not_visible_ofNumber {n : Nat} (h : 0x7f ≤ n) : ¬ Visible (.ofNumber n) := by
  rintro ⟨-, low⟩
  unfold Code.ofNumber at low
  split at low
  · rename_i valid
    have number : (Char.ofNat n).toNat = n := by
      rw [Char.ofNat, dif_pos valid]
      rfl
    rw [Code.number, number] at low
    omega
  · rw [Code.number, Code.firstHalf] at low
    omega

theorem units_of_unicodeStep {r : List Code} (h : unicodeStep r = .code c mid)
    (others : Units mid units rest) : ∃ front,
      Units (.char '\\' :: .char 'u' :: r) (front ++ units) rest ∧ (Visible c → front = [c]) := by
  unfold unicodeStep at h
  split at h
  · cases h
  · rename_i u after first
    obtain ⟨a, b, c, d, ds, rfl, hex, rfl⟩ := codeUnit?_eq_some first
    split at h
    · rename_i more _
      split at h
      · cases h
      · rename_i v behind second
        split at h
        · -- the character of two halves is none of the first 128
          obtain ⟨rfl, rfl⟩ := StringStep.code.inj h
          obtain ⟨a', b', c', d', ds', rfl, hex', rfl⟩ := codeUnit?_eq_some second
          refine ⟨[_, _], .digits hex (.digits hex' others), fun visible => ?_⟩
          exact absurd visible (not_visible_ofNumber (by omega))
        · obtain ⟨rfl, rfl⟩ := StringStep.code.inj h
          exact ⟨[_], .digits hex others, fun _ => rfl⟩
    · obtain ⟨rfl, rfl⟩ := StringStep.code.inj h
      exact ⟨[_], .digits hex others, fun _ => rfl⟩

theorem units_of_escapeStep {start : Nat} {r : List Code} (h : escapeStep start r = .code c mid)
    (others : Units mid units rest) :
    ∃ front, Units (.char '\\' :: r) (front ++ units) rest ∧ (Visible c → front = [c]) := by
  unfold escapeStep at h
  split at h
  · cases h
  · exact units_of_unicodeStep h others
  · rename_i e r _
    split at h
    · rename_i escape
      obtain ⟨rfl, rfl⟩ := StringStep.code.inj h
      obtain ⟨ch, hch, letter⟩ := Option.bind_eq_some_iff.mp escape
      cases e with
      | char ch' =>
        obtain rfl := Option.some.inj hch
        exact ⟨[_], .letter letter others, fun _ => rfl⟩
      | lone half => cases hch
    · cases h

/-- One step of the reader reads one unit, or two that are halves of one character. -/
theorem units_of_code {start : Nat} (h : stringStep start cs = .code c mid)
    (others : Units mid units rest) :
    ∃ front, Units cs (front ++ units) rest ∧ (Visible c → front = [c]) := by
  unfold stringStep at h
  split at h
  · cases h
  · cases h
  · exact units_of_escapeStep h others
  · rename_i no_quote no_escape
    split at h
    · cases h
    · rename_i high
      obtain ⟨rfl, rfl⟩ := StringStep.code.inj h
      exact ⟨[_], .itself (Nat.le_of_not_lt high) (fun same => no_quote (by rw [same]))
        (fun same => no_escape (by rw [same])) others, fun _ => rfl⟩

theorem units_of_stringFrom {start fuel : Nat} {read : List Code} {t : Text}
    (h : stringFrom start fuel read cs = .ok (t, rest)) :
    ∃ units codes, Units cs units rest ∧ t.codes = read.reverse ++ codes ∧
      ((∀ c ∈ codes, Visible c) → units = codes) := by
  induction fuel generalizing read cs with
  | zero => cases h
  | succ fuel ih =>
    rw [stringFrom] at h
    split at h
    · rename_i after step
      obtain ⟨rfl, rfl⟩ := Prod.mk.inj (Except.ok.inj h)
      unfold stringStep at step
      split at step
      · cases step
      · obtain rfl := StringStep.close.inj step
        exact ⟨[], [], .close _, (List.append_nil _).symm, fun _ => rfl⟩
      · exact absurd step escapeStep_ne_close
      · split at step <;> cases step
    · rename_i c after step
      obtain ⟨units, codes, spelled, same, visible⟩ := ih h
      obtain ⟨front, spelled, single⟩ := units_of_code step spelled
      refine ⟨front ++ units, c :: codes, spelled, by rw [same]; simp, fun all => ?_⟩
      obtain ⟨first, others⟩ := List.forall_mem_cons.mp all
      rw [single first, visible others]
      rfl
    · cases h

/-- A string is spelled by units, which are its code points where all of them are visible. -/
theorem units_of_string {t : Text} (h : string cs = .ok (t, rest)) :
    ∃ units, Units cs units rest ∧ ((∀ c ∈ t.codes, Visible c) → units = t.codes) := by
  obtain ⟨units, codes, spelled, same, visible⟩ := units_of_stringFrom h
  rw [List.reverse_nil, List.nil_append] at same
  exact ⟨units, spelled, fun all => by rw [same, visible (same ▸ all)]⟩

/-! ## Words and numbers -/

/-- The characters of words and numbers. -/
def plainChars : List Char :=
  ['a', 'e', 'f', 'i', 'l', 'n', 'r', 's', 't', 'u', 'y', 'E', 'I', 'N',
  '0', '1', '2', '3', '4', '5', '6', '7', '8', '9', '+', '-', '.']

/-- The code points start with characters of words and numbers, of which there may be none. -/
def Written (cs rest : List Code) : Prop :=
  ∃ chars : List Char, cs = chars.map .char ++ rest ∧ ∀ ch ∈ chars, ch ∈ plainChars

theorem Written.refl (cs : List Code) : Written cs cs := ⟨[], rfl, by simp⟩

theorem Written.trans (h : Written cs mid) (h' : Written mid rest) : Written cs rest := by
  obtain ⟨chars, rfl, plain⟩ := h
  obtain ⟨chars', rfl, plain'⟩ := h'
  refine ⟨chars ++ chars', by simp, ?_⟩
  intro ch hch
  rcases List.mem_append.mp hch with mem | mem
  · exact plain ch mem
  · exact plain' ch mem

theorem Written.cons {ch : Char} (plain : ch ∈ plainChars) (h : Written cs rest) :
    Written (.char ch :: cs) rest := by
  obtain ⟨chars, rfl, others⟩ := h
  exact ⟨ch :: chars, rfl, List.forall_mem_cons.mpr ⟨plain, others⟩⟩

theorem written_of_digit (digit : isDigitCode c = true) :
    ∃ ch ∈ plainChars, ch ≠ '-' ∧ c = .char ch := by
  obtain ⟨d, hd⟩ := Option.isSome_iff_exists.mp digit
  obtain ⟨ch, hch, value⟩ := Option.bind_eq_some_iff.mp hd
  obtain ⟨lt, rfl⟩ := asciiDigit?_eq_some_iff.mp value
  have known : ∀ d : Fin 10, Nat.digitChar d ∈ plainChars ∧ Nat.digitChar d ≠ '-' := by decide
  obtain ⟨mem, no_sign⟩ := known ⟨d, lt⟩
  refine ⟨_, mem, no_sign, ?_⟩
  cases c with
  | char ch => exact congrArg Code.char (Option.some.inj hch)
  | lone half => cases hch

theorem written_digitRun (cs : List Code) : Written cs (digitRun cs).2 := by
  show Written cs (cs.dropWhile isDigitCode)
  induction cs with
  | nil => exact .refl []
  | cons c cs ih =>
    by_cases digit : isDigitCode c = true
    · obtain ⟨ch, plain, -, rfl⟩ := written_of_digit digit
      rw [List.dropWhile_cons_of_pos digit]
      exact ih.cons plain
    · rw [List.dropWhile_cons_of_neg digit]
      exact .refl _

theorem written_fraction (cs : List Code) : Written cs (fraction cs).2 := by
  unfold fraction
  split
  · rename_i r
    dsimp only
    split
    · exact .refl _
    · exact (written_digitRun r).cons (by decide)
  · exact .refl _

theorem written_powerSign (cs : List Code) : Written cs (powerSign cs).2 := by
  unfold powerSign
  split
  · exact (Written.refl _).cons (by decide)
  · exact (Written.refl _).cons (by decide)
  · exact .refl _

theorem written_power (cs : List Code) : Written cs (power cs).2 := by
  unfold power
  split
  · rename_i c r
    split
    · rename_i letter
      dsimp only
      split
      · exact .refl _
      · have behind := (written_powerSign r).trans (written_digitRun _)
        rcases letter with rfl | rfl <;> exact behind.cons (by decide)
    · exact .refl _
  · exact .refl _

/-- The code points start with a word or a number: a character that one starts with and more such
characters, one that is no sign among them if the first is a sign. -/
structure StartsPlain (cs : List Code) (ch : Char) (chars : List Char) (rest : List Code) :
    Prop where
  spelled : cs = (ch :: chars).map .char ++ rest
  start : ch ∈ plainStarts
  plain : ∀ ch ∈ chars, ch ∈ plainChars
  signed : ch = '-' → ∃ second ∈ chars.head?, second ≠ '-'

theorem starts_unsigned {negative : Bool} {n : Number}
    (h : unsignedNumber? negative cs = some (n, rest)) :
    ∃ ch r, cs = .char ch :: r ∧ ch ∈ plainStarts ∧ ch ∈ plainChars ∧ ch ≠ '-' ∧
      Written r rest := by
  obtain ⟨⟨w, after⟩, hw, h⟩ := Option.bind_eq_some_iff.mp h
  have same : (power (fraction after).2).2 = rest := congrArg Prod.snd (Option.some.inj h)
  have behind := (written_fraction after).trans (written_power (fraction after).2)
  rw [same] at behind
  unfold whole? at hw
  split at hw
  · obtain ⟨-, rfl⟩ := Prod.mk.inj (Option.some.inj hw)
    exact ⟨'0', _, rfl, by decide, by decide, by decide, behind⟩
  · rename_i c r _
    split at hw
    · rename_i digit
      obtain ⟨-, rfl⟩ := Prod.mk.inj (Option.some.inj hw)
      rw [List.dropWhile_cons_of_pos digit] at behind
      obtain ⟨ch, plain, no_sign, rfl⟩ := written_of_digit digit
      obtain ⟨ch', start, same⟩ := starts_of_digit digit
      obtain rfl := Code.char.inj same
      exact ⟨ch, r, rfl, start, plain, no_sign, (written_digitRun r).trans behind⟩
    · cases hw
  · cases hw

theorem word_codes {w : Text × Document} (h : w ∈ words) :
    ∃ ch chars, w.1.codes = (ch :: chars).map .char ∧ ch ∈ plainStarts ∧
      (∀ ch ∈ chars, ch ∈ plainChars) ∧ (ch = '-' → ∃ second ∈ chars.head?, second ≠ '-') := by
  simp only [words, List.mem_cons, List.not_mem_nil, or_false] at h
  rcases h with rfl | rfl | rfl | rfl | rfl | rfl
  · exact ⟨'n', ['u', 'l', 'l'], rfl, by decide, by simp [plainChars], by simp⟩
  · exact ⟨'t', ['r', 'u', 'e'], rfl, by decide, by simp [plainChars], by simp⟩
  · exact ⟨'f', ['a', 'l', 's', 'e'], rfl, by decide, by simp [plainChars], by simp⟩
  · exact ⟨'N', ['a', 'N'], rfl, by decide, by simp [plainChars], by simp⟩
  · exact ⟨'I', ['n', 'f', 'i', 'n', 'i', 't', 'y'], rfl, by decide, by simp [plainChars], by simp⟩
  · exact ⟨'-', ['I', 'n', 'f', 'i', 'n', 'i', 't', 'y'], rfl, by decide, by simp [plainChars],
      by simp⟩

/-- A word or a number has letters, digits, signs and points only. -/
theorem startsPlain_of_plainValue {levels : Nat} {v : Document}
    (h : plainValue levels cs = .ok (v, rest)) :
    ∃ ch chars, StartsPlain cs ch chars rest := by
  rcases plainValue_cases h with ⟨w, word, rfl, -⟩ | ⟨n, number, -⟩
  · obtain ⟨ch, chars, codes, start, plain, signed⟩ := word_codes word
    exact ⟨ch, chars, by rw [codes], start, plain, signed⟩
  · unfold number? at number
    split at number
    · rename_i r
      obtain ⟨ch, r, rfl, -, plain, no_sign, chars, rfl, others⟩ := starts_unsigned number
      exact ⟨'-', ch :: chars, rfl, by decide, List.forall_mem_cons.mpr ⟨plain, others⟩,
        fun _ => ⟨ch, rfl, no_sign⟩⟩
    · obtain ⟨ch, r, rfl, start, -, no_sign, chars, rfl, others⟩ := starts_unsigned number
      exact ⟨ch, chars, rfl, start, others, fun sign => absurd sign no_sign⟩

end FieldProgram.Json

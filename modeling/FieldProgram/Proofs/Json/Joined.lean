import FieldProgram.Json.Writer
import FieldProgram.Json.Token
import FieldProgram.Proofs.Json.Plain
import FieldProgram.Proofs.Numeral.Literal
import FieldProgram.Proofs.Text.Ascii

/-!
# Written strings read back

Every code point of a written string reads back as it is, except that the escapes of two halves of a
surrogate pair that stand together read as the character of the pair.

* `joinedCodes_of_unsplit`, `unsplitCodes_joinedCodes`: joining changes nothing where no pair is
  split, and leaves no pair split;
* `string_written`: a written string reads as the joined text.
-/

namespace FieldProgram

open Numeral Json

/-! ## Split pairs -/

namespace Code

/-- The first half of a surrogate pair. -/
def isHigh : Code → Bool
  | .lone half => half.val < 0x400
  | .char _ => false

/-- The second half of a surrogate pair. -/
def isLow : Code → Bool
  | .lone half => 0x400 ≤ half.val
  | .char _ => false

end Code

/-- The halves of a pair nowhere stand together. -/
def UnsplitCodes : List Code → Prop
  | a :: b :: cs => ¬(a.isHigh = true ∧ b.isLow = true) ∧ UnsplitCodes (b :: cs)
  | _ => True

/-- The code points with the character of a pair for two halves that stand together. -/
def joinedCodes : List Code → List Code
  | a :: b :: cs =>
    if a.isHigh = true ∧ b.isLow = true then pairCode a.number b.number :: joinedCodes cs
    else a :: joinedCodes (b :: cs)
  | cs => cs

def Text.Unsplit (t : Text) : Prop := UnsplitCodes t.codes

def Text.joined (t : Text) : Text := ⟨joinedCodes t.codes⟩

theorem joinedCodes_of_unsplit {cs : List Code} (h : UnsplitCodes cs) : joinedCodes cs = cs := by
  fun_induction joinedCodes cs with
  | case1 a b cs pair => exact absurd pair h.1
  | case2 a b cs _ ih => rw [ih h.2]
  | case3 cs => rfl

theorem Text.joined_of_unsplit {t : Text} (h : t.Unsplit) : t.joined = t := by
  rw [joined, joinedCodes_of_unsplit h]

theorem exists_pairCode {a b : Code} (high : a.isHigh = true) (low : b.isLow = true) :
    ∃ c, pairCode a.number b.number = .char c := by
  cases a with
  | char _ => cases high
  | lone h =>
    cases b with
    | char _ => cases low
    | lone l =>
      simp only [Code.isHigh, Code.isLow, decide_eq_true_eq] at high low
      have := l.isLt
      have valid : (0x10000 + ((Code.lone h).number - 0xd800) * 0x400 +
          ((Code.lone l).number - 0xdc00)).isValidChar := by
        simp only [Code.number, Code.firstHalf, Nat.isValidChar]
        omega
      rw [pairCode, Code.ofNumber, if_pos valid]
      exact ⟨_, rfl⟩

/-- Joining keeps the first code point from being a second half if it is none. -/
theorem isLow_head_joinedCodes {b : Code} {cs : List Code} (h : b.isLow = false) :
    ∀ c ∈ (joinedCodes (b :: cs)).head?, c.isLow = false := by
  intro c hc
  cases cs with
  | nil =>
    obtain rfl : b = c := by simpa [joinedCodes] using hc
    exact h
  | cons d cs =>
    rw [joinedCodes] at hc
    split at hc
    · rename_i pair
      obtain ⟨ch, hch⟩ := exists_pairCode pair.1 pair.2
      rw [hch] at hc
      obtain rfl : Code.char ch = c := by simpa using hc
      rfl
    · obtain rfl : b = c := by simpa using hc
      exact h

theorem unsplitCodes_cons {a : Code} {cs : List Code} (h : UnsplitCodes cs)
    (fits : a.isHigh = true → ∀ c ∈ cs.head?, c.isLow = false) : UnsplitCodes (a :: cs) := by
  cases cs with
  | nil => trivial
  | cons b cs =>
    refine ⟨?_, h⟩
    rintro ⟨high, low⟩
    rw [fits high b rfl] at low
    cases low

theorem unsplitCodes_joinedCodes (cs : List Code) : UnsplitCodes (joinedCodes cs) := by
  fun_induction joinedCodes cs with
  | case1 a b cs pair ih =>
    refine unsplitCodes_cons ih fun high => ?_
    obtain ⟨c, hc⟩ := exists_pairCode pair.1 pair.2
    rw [hc] at high
    cases high
  | case2 a b cs pair ih =>
    refine unsplitCodes_cons ih fun high => isLow_head_joinedCodes ?_
    exact Bool.eq_false_iff.mpr fun low => pair ⟨high, low⟩
  | case3 cs short =>
    match cs, short with
    | [], _ => trivial
    | [_], _ => trivial
    | a :: b :: cs, short => exact absurd rfl (short a b cs)

theorem Text.unsplit_joined (t : Text) : t.joined.Unsplit := unsplitCodes_joinedCodes t.codes

namespace Json

/-- Characters as code points. -/
def codesOf (cs : List Char) : List Code := cs.map .char

@[simp] theorem codesOf_nil : codesOf [] = [] := rfl

@[simp] theorem codesOf_cons (c : Char) (cs : List Char) :
    codesOf (c :: cs) = .char c :: codesOf cs := rfl

@[simp] theorem codesOf_append (as bs : List Char) :
    codesOf (as ++ bs) = codesOf as ++ codesOf bs := List.map_append

/-! ## Escapes -/

theorem codeUnit?_digits {ds : List Nat} (four : ds.length = 4) (lt : ∀ d ∈ ds, d < 16)
    {rest : List Code} (more : rest ≠ []) :
    codeUnit? (codesOf (ds.map Nat.digitChar) ++ rest) = some (ofDigits 16 ds, rest) := by
  have digits : (codesOf (ds.map Nat.digitChar)).mapM hexCode? = some ds := by
    have := mapM_digitChar (fun _ h => hexValue?_digitChar h) lt
    rw [← this, codesOf, List.mapM_map]
    rfl
  match ds, four with
  | [a, b, c, d], _ =>
    obtain ⟨e, r, rfl⟩ := List.exists_cons_of_ne_nil more
    simp only [List.map_cons, List.map_nil, codesOf_cons, codesOf_nil] at digits
    simp only [List.map_cons, List.map_nil, codesOf_cons, codesOf_nil, List.cons_append,
      List.nil_append, codeUnit?, digits]
    rfl

theorem ofDigits_zeros (base k : Nat) (ds : List Nat) :
    ofDigits base (List.replicate k 0 ++ ds) = ofDigits base ds := by
  induction k with
  | zero => rfl
  | succ k ih =>
    rw [List.replicate_succ, List.cons_append, ofDigits_cons, ih]
    omega

theorem codeUnit?_written {u : Nat} (small : u < 0x10000) {rest : List Code} (more : rest ≠ []) :
    codeUnit? (codesOf (hexDigitsPadded 4 u) ++ rest) = some (u, rest) := by
  have short : (digits 16 u).length ≤ 4 :=
    (length_digits_le_iff (by decide) (by decide)).mpr (by simpa using small)
  have padded : hexDigitsPadded 4 u =
      (List.replicate (4 - (digits 16 u).length) 0 ++ digits 16 u).map Nat.digitChar := by
    simp [hexDigitsPadded, hexDigits]
  have lt : ∀ d ∈ List.replicate (4 - (digits 16 u).length) 0 ++ digits 16 u, d < 16 := by
    intro d hd
    rcases List.mem_append.mp hd with hd | hd
    · rw [List.eq_of_mem_replicate hd]
      decide
    · exact digits_lt (by decide) u d hd
  rw [padded, codeUnit?_digits (by simp; omega) lt more, ofDigits_zeros,
    ofDigits_digits (by decide)]

theorem ofNumber_lone (half : Fin 2048) :
    Code.ofNumber (Code.lone half).number = .lone half := by
  have invalid : ¬((Code.lone half).number).isValidChar := by
    have := half.isLt
    simp only [Code.number, Code.firstHalf, Nat.isValidChar]
    omega
  rw [Code.ofNumber, if_neg invalid, Code.number, Nat.add_sub_cancel_left]
  congr 1
  exact Fin.ext (Nat.mod_eq_of_lt half.isLt)

theorem lone_number (half : Fin 2048) : (Code.lone half).number = 0xd800 + half := rfl

theorem lone_number_lt (half : Fin 2048) : (Code.lone half).number < 0x10000 := by
  rw [lone_number]
  omega

theorem isHighSurrogate_number {half : Fin 2048} :
    isHighSurrogate (Code.lone half).number = (Code.lone half).isHigh := by
  rw [lone_number, Bool.eq_iff_iff]
  simp only [isHighSurrogate, Code.isHigh, Bool.and_eq_true, decide_eq_true_eq]
  omega

theorem isLowSurrogate_number {half : Fin 2048} :
    isLowSurrogate (Code.lone half).number = (Code.lone half).isLow := by
  rw [lone_number, Bool.eq_iff_iff]
  simp only [isLowSurrogate, Code.isLow, Bool.and_eq_true, decide_eq_true_eq]
  omega

/-- The text does not start with an escape in digits. -/
def NoUnit (cs : List Code) : Prop := ∀ r, cs ≠ .char '\\' :: .char 'u' :: r

/-- The text does not start with an escape in digits, or with one that is a second half exactly if
`low` holds. -/
def StartsUnit (low : Bool) (cs : List Code) : Prop :=
  NoUnit cs ∨ ∃ v after, v < 0x10000 ∧ after ≠ [] ∧ cs = codesOf (unitEscape v) ++ after ∧
    isLowSurrogate v = low

/-- An escape in digits that is no first half of a pair stands for itself. -/
theorem unicodeStep_single {u : Nat} (small : u < 0x10000) (single : isHighSurrogate u = false)
    {rest : List Code} (more : rest ≠ []) :
    unicodeStep (codesOf (hexDigitsPadded 4 u) ++ rest) = .code (.ofNumber u) rest := by
  rw [unicodeStep, codeUnit?_written small more]
  dsimp only
  rw [single]

/-- So does a first half with no escape in digits behind it. -/
theorem unicodeStep_noUnit {u : Nat} (small : u < 0x10000) {rest : List Code} (more : rest ≠ [])
    (noUnit : NoUnit rest) :
    unicodeStep (codesOf (hexDigitsPadded 4 u) ++ rest) = .code (.ofNumber u) rest := by
  rw [unicodeStep, codeUnit?_written small more]
  dsimp only
  split
  · rename_i r _
    exact absurd rfl (noUnit r)
  · rfl

theorem unicodeStep_two {u v : Nat} (small : u < 0x10000) (high : isHighSurrogate u = true)
    (small' : v < 0x10000) {rest : List Code} (more : rest ≠ []) :
    unicodeStep (codesOf (hexDigitsPadded 4 u) ++ (codesOf (unitEscape v) ++ rest)) =
      if isLowSurrogate v then .code (pairCode u v) rest
      else .code (.ofNumber u) (codesOf (unitEscape v) ++ rest) := by
  rw [unicodeStep, codeUnit?_written small (by simp [unitEscape])]
  dsimp only
  rw [high]
  simp only [unitEscape, codesOf_cons, List.cons_append]
  rw [codeUnit?_written small' more]

/-! ## Code points -/

theorem stringStep_unitEscape (start u : Nat) (rest : List Code) :
    stringStep start (codesOf (unitEscape u) ++ rest) =
      unicodeStep (codesOf (hexDigitsPadded 4 u) ++ rest) := rfl

theorem stringStep_simpleEscape {c e : Char} (letter : e ≠ 'u') (h : simpleEscape? e = some c)
    (start : Nat) (rest : List Code) :
    stringStep start (.char '\\' :: .char e :: rest) = .code (.char c) rest := by
  show escapeStep start (.char e :: rest) = _
  unfold escapeStep
  split
  · rename_i same
    cases same
  · rename_i same
    exact absurd (Code.char.inj (List.cons.inj same).1) letter
  · rename_i same
    obtain ⟨rfl, rfl⟩ := List.cons.inj same
    have found : (Code.char e).char?.bind simpleEscape? = some c := h
    rw [found]

/-- The ways to write a character: an escape of one letter, the character itself, an escape in
digits, or two of them. -/
theorem writtenChar_cases (c : Char) :
    (∃ e, e ≠ 'u' ∧ simpleEscape? e = some c ∧ writtenChar c = ['\\', e]) ∨
    (Plain (.char c) ∧ c.toNat < 0x7f ∧ writtenChar c = [c]) ∨
    (c.toNat < 0x10000 ∧ writtenChar c = unitEscape c.toNat) ∨
    (0x10000 ≤ c.toNat ∧ writtenChar c = unitEscape (0xd800 + (c.toNat - 0x10000) / 0x400) ++
      unitEscape (0xdc00 + (c.toNat - 0x10000) % 0x400)) := by
  unfold writtenChar
  split
  · exact .inl ⟨'"', by decide, rfl, rfl⟩
  · exact .inl ⟨'\\', by decide, rfl, rfl⟩
  · exact .inl ⟨'n', by decide, rfl, rfl⟩
  · exact .inl ⟨'r', by decide, rfl, rfl⟩
  · exact .inl ⟨'t', by decide, rfl, rfl⟩
  · exact .inl ⟨'b', by decide, rfl, rfl⟩
  · exact .inl ⟨'f', by decide, rfl, rfl⟩
  · rename_i quote backslash _ _ _ _ _
    dsimp only
    split
    · rename_i printable
      have plain : Plain (.char c) :=
        ⟨by simpa using quote, by simpa using backslash, printable.1⟩
      exact .inr (.inl ⟨plain, printable.2, rfl⟩)
    · split
      · rename_i small
        exact .inr (.inr (.inl ⟨small, rfl⟩))
      · rename_i large
        exact .inr (.inr (.inr ⟨Nat.le_of_not_lt large, rfl⟩))

/-- The numbers of characters that are no halves of surrogate pairs. -/
theorem toNat_range (c : Char) : c.toNat < 0xd800 ∨ 0xdfff < c.toNat ∧ c.toNat < 0x110000 :=
  c.valid

theorem stringStep_writtenChar (c : Char) (start : Nat) {rest : List Code} (more : rest ≠ []) :
    stringStep start (codesOf (writtenChar c) ++ rest) = .code (.char c) rest := by
  have range := toNat_range c
  rcases writtenChar_cases c with
    ⟨e, letter, escaped, same⟩ | ⟨plain, -, same⟩ | ⟨small, same⟩ | ⟨large, same⟩
  · rw [same]
    exact stringStep_simpleEscape letter escaped start rest
  · rw [same]
    exact stringStep_plain plain start rest
  · have single : isHighSurrogate c.toNat = false := by
      simp only [isHighSurrogate, Bool.and_eq_false_iff, decide_eq_false_iff_not]
      omega
    rw [same, stringStep_unitEscape, unicodeStep_single small single more, Code.ofNumber_toNat]
  · have high : isHighSurrogate (0xd800 + (c.toNat - 0x10000) / 0x400) = true := by
      simp only [isHighSurrogate, Bool.and_eq_true, decide_eq_true_eq]
      omega
    have low : isLowSurrogate (0xdc00 + (c.toNat - 0x10000) % 0x400) = true := by
      simp only [isLowSurrogate, Bool.and_eq_true, decide_eq_true_eq]
      omega
    have sum : 0x10000 + (0xd800 + (c.toNat - 0x10000) / 0x400 - 0xd800) * 0x400 +
        (0xdc00 + (c.toNat - 0x10000) % 0x400 - 0xdc00) = c.toNat := by omega
    rw [same, codesOf_append, List.append_assoc, stringStep_unitEscape,
      unicodeStep_two (by omega) high (by omega) more, if_pos low, pairCode, sum,
      Code.ofNumber_toNat]

theorem unitEscape_ne_nil (u : Nat) : unitEscape u ≠ [] := List.cons_ne_nil _ _

theorem writtenCode_ne_nil (c : Code) : writtenCode c ≠ [] := by
  cases c with
  | lone half => exact unitEscape_ne_nil _
  | char c =>
    show writtenChar c ≠ []
    rcases writtenChar_cases c with ⟨e, -, -, same⟩ | ⟨-, -, same⟩ | ⟨-, same⟩ | ⟨-, same⟩
    · rw [same]
      exact List.cons_ne_nil _ _
    · rw [same]
      exact List.cons_ne_nil _ _
    · rw [same]
      exact unitEscape_ne_nil _
    · rw [same]
      exact List.append_ne_nil_of_left_ne_nil (unitEscape_ne_nil _) _

/-- A written code point shows at its start whether it is a second half. -/
theorem startsUnit_written (c : Code) {rest : List Code} (more : rest ≠ []) :
    StartsUnit c.isLow (codesOf (writtenCode c) ++ rest) := by
  cases c with
  | lone half =>
    exact .inr ⟨_, rest, lone_number_lt half, more, rfl, isLowSurrogate_number⟩
  | char c =>
    have range := toNat_range c
    rw [show writtenCode (.char c) = writtenChar c from rfl]
    rcases writtenChar_cases c with
      ⟨e, letter, -, same⟩ | ⟨⟨-, backslash, -⟩, -, same⟩ | ⟨small, same⟩ | ⟨large, same⟩
    · refine .inl fun r unit => ?_
      rw [same] at unit
      exact letter (by simpa using (List.cons.inj (List.cons.inj unit).2).1)
    · refine .inl fun r unit => ?_
      rw [same] at unit
      exact backslash (List.cons.inj unit).1
    · refine .inr ⟨_, rest, small, more, by rw [same], ?_⟩
      simp only [isLowSurrogate, Code.isLow, Bool.and_eq_false_iff, decide_eq_false_iff_not]
      omega
    · refine .inr ⟨0xd800 + (c.toNat - 0x10000) / 0x400,
        codesOf (unitEscape (0xdc00 + (c.toNat - 0x10000) % 0x400)) ++ rest, by omega,
        by simp [more], ?_, ?_⟩
      · rw [same, codesOf_append, List.append_assoc]
      · simp only [isLowSurrogate, Code.isLow, Bool.and_eq_false_iff, decide_eq_false_iff_not]
        omega

/-- A code point reads back unless it is the first half of a pair with the second half behind. -/
theorem stringStep_alone {a : Code} (start : Nat) {rest : List Code} (more : rest ≠ [])
    (alone : a.isHigh = true → StartsUnit false rest) :
    stringStep start (codesOf (writtenCode a) ++ rest) = .code a rest := by
  cases a with
  | char c => exact stringStep_writtenChar c start more
  | lone half =>
    have small := lone_number_lt half
    rw [writtenCode, stringStep_unitEscape]
    cases high : (Code.lone half).isHigh with
    | false =>
      rw [unicodeStep_single small (isHighSurrogate_number.trans high) more, ofNumber_lone]
    | true =>
      rcases alone high with noUnit | ⟨v, after, small', more', rfl, single⟩
      · rw [unicodeStep_noUnit small more noUnit, ofNumber_lone]
      · rw [unicodeStep_two small (isHighSurrogate_number.trans high) small' more', single,
          ofNumber_lone]
        rfl

theorem stringStep_pair {a b : Code} (high : a.isHigh = true) (low : b.isLow = true) (start : Nat)
    {rest : List Code} (more : rest ≠ []) :
    stringStep start (codesOf (writtenCode a) ++ (codesOf (writtenCode b) ++ rest)) =
      .code (pairCode a.number b.number) rest := by
  cases a with
  | char _ => cases high
  | lone h =>
    cases b with
    | char _ => cases low
    | lone l =>
      rw [writtenCode, writtenCode, stringStep_unitEscape, unicodeStep_two (lone_number_lt h)
        (isHighSurrogate_number.trans high) (lone_number_lt l) more,
        if_pos (isLowSurrogate_number.trans low)]

/-! ## Strings -/

theorem stringFrom_of_code {start fuel : Nat} {read cs rest : List Code} {c : Code}
    (step : stringStep start cs = .code c rest) :
    stringFrom start (fuel + 1) read cs = stringFrom start fuel (c :: read) rest := by
  rw [stringFrom, step]

theorem stringFrom_close (start fuel : Nat) (read rest : List Code) :
    stringFrom start (fuel + 1) read (.char '"' :: rest) = .ok (⟨read.reverse⟩, rest) := by
  rfl

theorem stringFrom_written (cs : List Code) (start fuel : Nat) (fits : cs.length < fuel)
    (read rest : List Code) :
    stringFrom start fuel read (codesOf (cs.flatMap writtenCode) ++ .char '"' :: rest) =
      .ok (⟨read.reverse ++ joinedCodes cs⟩, rest) := by
  fun_induction joinedCodes cs generalizing fuel read with
  | case1 a b cs pair ih =>
    obtain ⟨fuel, rfl⟩ := Nat.exists_eq_succ_of_ne_zero (Nat.ne_zero_of_lt fits)
    have step := stringStep_pair pair.1 pair.2 start
      (show codesOf (cs.flatMap writtenCode) ++ .char '"' :: rest ≠ [] by simp)
    simp only [List.flatMap_cons, codesOf_append, List.append_assoc]
    rw [stringFrom_of_code step, ih fuel (by simp at fits; omega)]
    simp
  | case2 a b cs pair ih =>
    obtain ⟨fuel, rfl⟩ := Nat.exists_eq_succ_of_ne_zero (Nat.ne_zero_of_lt fits)
    have alone : a.isHigh = true →
        StartsUnit false (codesOf ((b :: cs).flatMap writtenCode) ++ .char '"' :: rest) := by
      intro high
      have single : b.isLow = false := Bool.eq_false_iff.mpr fun low => pair ⟨high, low⟩
      rw [List.flatMap_cons, codesOf_append, List.append_assoc, ← single]
      exact startsUnit_written b (by simp)
    rw [List.flatMap_cons, codesOf_append, List.append_assoc,
      stringFrom_of_code (stringStep_alone start (by simp) alone),
      ih fuel (by simp at fits ⊢; omega)]
    simp
  | case3 cs short =>
    obtain ⟨fuel, rfl⟩ := Nat.exists_eq_succ_of_ne_zero (Nat.ne_zero_of_lt fits)
    cases cs with
    | nil => simp [stringFrom_close]
    | cons a cs =>
      cases cs with
      | nil =>
        obtain ⟨fuel, rfl⟩ := Nat.exists_eq_succ_of_ne_zero (show fuel ≠ 0 by simp at fits; omega)
        have alone : NoUnit (.char '"' :: rest) := by
          intro r same
          simp at same
        rw [List.flatMap_singleton,
          stringFrom_of_code (stringStep_alone start (by simp) fun _ => .inl alone),
          stringFrom_close]
        simp
      | cons b cs => exact absurd rfl (short a b cs)

theorem length_flatMap_writtenCode (cs : List Code) :
    cs.length ≤ (cs.flatMap writtenCode).length := by
  induction cs with
  | nil => simp
  | cons c cs ih =>
    have pos := List.length_pos_iff.mpr (writtenCode_ne_nil c)
    simp only [List.flatMap_cons, List.length_cons, List.length_append]
    omega

theorem string_written (t : Text) (rest : List Code) :
    string (codesOf (t.codes.flatMap writtenCode) ++ .char '"' :: rest) = .ok (t.joined, rest) := by
  have length := length_flatMap_writtenCode t.codes
  rw [string, stringFrom_written]
  · rfl
  · simp only [List.length_append, List.length_cons, codesOf, List.length_map]
    omega

end Json

end FieldProgram

import FieldProgram.Text.Sniffed

/-!
# Characters in octets

The octets of a text in UTF-8 decode to the text, whatever its characters are. They show no other
encoding unless the text starts with a byte order mark or has a null among its first characters; a
mark in front of them shows UTF-8 always.

* `Encodes`: the octets of a code point, with one constructor for each number of octets;
* `decodeLenient_encode`: what is encoded decodes to itself;
* `decodeSniffed_encode`, `decodeSniffed_mark`: and does so where the encoding is not given.
-/

namespace FieldProgram

theorem Code.ofNumber_toNat (c : Char) : Code.ofNumber c.toNat = .char c := by
  rw [ofNumber, if_pos (show c.toNat.isValidChar from c.valid), Char.ofNat_toNat]

namespace Text

namespace Utf8

/-! ## The octets of a code point -/

/-- The octet that goes on with the last six bits of a number. -/
def tail (n : Nat) : UInt8 := UInt8.ofNat (n % 64 + 0x80)

/-- The octets of a code point. -/
inductive Encodes (n : Nat) : List UInt8 → Prop
  | one (high : n < 0x80) : Encodes n [UInt8.ofNat n]
  | two (low : 0x80 ≤ n) (high : n < 0x800) : Encodes n [UInt8.ofNat (n / 64 + 0xc0), tail n]
  | three (low : 0x800 ≤ n) (high : n < 0x10000) (whole : n < 0xd800 ∨ 0xe000 ≤ n) :
    Encodes n [UInt8.ofNat (n / 4096 + 0xe0), tail (n / 64), tail n]
  | four (low : 0x10000 ≤ n) (high : n < 0x110000) :
    Encodes n [UInt8.ofNat (n / 262144 + 0xf0), tail (n / 4096), tail (n / 64), tail n]

theorem encodes_utf8EncodeChar (c : Char) : Encodes c.toNat (String.utf8EncodeChar c) := by
  have valid : c.val.toNat < 0xd800 ∨ 0xdfff < c.val.toNat ∧ c.val.toNat < 0x110000 := c.valid
  unfold String.utf8EncodeChar
  dsimp only
  split
  · exact .one (show c.val.toNat < 0x80 by omega)
  · split
    · rw [Nat.mod_eq_of_lt (show c.val.toNat / 64 < 32 by omega)]
      exact .two (show 0x80 ≤ c.val.toNat by omega) (show c.val.toNat < 0x800 by omega)
    · split
      · rw [Nat.mod_eq_of_lt (show c.val.toNat / 4096 < 16 by omega)]
        exact .three (show 0x800 ≤ c.val.toNat by omega) (show c.val.toNat < 0x10000 by omega)
          (show c.val.toNat < 0xd800 ∨ 0xe000 ≤ c.val.toNat by omega)
      · rw [Nat.mod_eq_of_lt (show c.val.toNat / 262144 < 8 by omega)]
        exact .four (show 0x10000 ≤ c.val.toNat by omega) (show c.val.toNat < 0x110000 by omega)

theorem toNat_tail (n : Nat) : (tail n).toNat = n % 64 + 0x80 := by
  rw [tail, UInt8.toNat_ofNat']
  omega

theorem continues_tail (n : Nat) : continues (tail n) = true := by
  simp only [continues, Bool.and_eq_true, decide_eq_true_eq, UInt8.le_iff_toNat_le, toNat_tail]
  exact ⟨Nat.le_add_left .., Nat.add_le_add_right (by omega) 0x80⟩

theorem extend_tail (code n : Nat) : extend code (tail n) = code * 64 + n % 64 := by
  rw [extend, toNat_tail]
  omega

/-! ## One step of the decoder -/

/-- The first of two octets. -/
theorem lead?_two : ∀ k < 32, 2 ≤ k →
    lead? (UInt8.ofNat (k + 0xc0)) = some ⟨k, 1, 0x80, 0xbf⟩ := by decide

/-- The first of three octets, with the second kept from codes that fewer octets have and from
halves of surrogate pairs. -/
theorem lead?_three : ∀ k < 16, lead? (UInt8.ofNat (k + 0xe0)) =
    some ⟨k, 2, if k = 0 then 0xa0 else 0x80, if k = 13 then 0x9f else 0xbf⟩ := by decide

/-- The first of four octets, with the second kept from codes that fewer octets have and from
numbers beyond the last code point. -/
theorem lead?_four : ∀ k < 5, lead? (UInt8.ofNat (k + 0xf0)) =
    some ⟨k, 3, if k = 0 then 0x90 else 0x80, if k = 4 then 0x8f else 0xbf⟩ := by decide

variable {α : Type} {make : Nat → α} {n : Nat} {octets bs : List UInt8}

theorem follow_tail (left code taken n : Nat) : follow make (left + 1) code taken (tail n :: bs) =
    follow make left (code * 64 + n % 64) (taken + 1) bs := by
  rw [follow, if_pos (continues_tail n), extend_tail]

theorem step_lead {a : UInt8} {l : Lead} (lead : lead? a = some l)
    (low : l.low.toNat ≤ n % 64 + 0x80) (high : n % 64 + 0x80 ≤ l.high.toNat) :
    step make (a :: tail n :: bs) = follow make (l.follow - 1) (l.share * 64 + n % 64) 2 bs := by
  have large : ¬a < 0x80 := by
    intro small
    have before : a < 0xc2 := UInt8.lt_trans small (by decide)
    rw [lead?, if_pos before] at lead
    cases lead
  have fits : (l.low ≤ tail n && tail n ≤ l.high) = true := by
    simp only [Bool.and_eq_true, decide_eq_true_eq, UInt8.le_iff_toNat_le, toNat_tail]
    exact ⟨low, high⟩
  unfold step
  dsimp only
  rw [if_neg large, lead]
  dsimp only
  rw [if_pos fits, extend_tail]

theorem step_one (high : n < 0x80) :
    step make (UInt8.ofNat n :: bs) = .symbol (make n) 1 bs := by
  have same : (UInt8.ofNat n).toNat = n := UInt8.toNat_ofNat_of_lt' (Nat.lt_trans high (by decide))
  have small : UInt8.ofNat n < 0x80 := UInt8.lt_iff_toNat_lt.mpr (by rw [same]; exact high)
  show (if UInt8.ofNat n < 0x80 then _ else _) = _
  rw [if_pos small, same]

theorem step_two (low : 0x80 ≤ n) (high : n < 0x800) :
    step make (UInt8.ofNat (n / 64 + 0xc0) :: tail n :: bs) = .symbol (make n) 2 bs := by
  have lead := lead?_two (n / 64) (by omega) (by omega)
  have code : n / 64 * 64 + n % 64 = n := by omega
  rw [step_lead lead (Nat.le_add_left ..) (show n % 64 + 0x80 ≤ 0xbf by omega)]
  show DecodeStep.symbol (make (n / 64 * 64 + n % 64)) 2 bs = _
  rw [code]

theorem step_three (low : 0x800 ≤ n) (high : n < 0x10000) (whole : n < 0xd800 ∨ 0xe000 ≤ n) :
    step make (UInt8.ofNat (n / 4096 + 0xe0) :: tail (n / 64) :: tail n :: bs) =
      .symbol (make n) 3 bs := by
  have lead := lead?_three (n / 4096) (by omega)
  have code : (n / 4096 * 64 + n / 64 % 64) * 64 + n % 64 = n := by omega
  rw [step_lead lead]
  · show follow make 1 (n / 4096 * 64 + n / 64 % 64) 2 (tail n :: bs) = _
    rw [follow_tail, code]
    rfl
  · simp only [apply_ite UInt8.toNat, UInt8.reduceToNat]
    split <;> omega
  · simp only [apply_ite UInt8.toNat, UInt8.reduceToNat]
    split <;> omega

theorem step_four (low : 0x10000 ≤ n) (high : n < 0x110000) :
    step make
        (UInt8.ofNat (n / 262144 + 0xf0) :: tail (n / 4096) :: tail (n / 64) :: tail n :: bs) =
      .symbol (make n) 4 bs := by
  have lead := lead?_four (n / 262144) (by omega)
  have code : ((n / 262144 * 64 + n / 4096 % 64) * 64 + n / 64 % 64) * 64 + n % 64 = n := by omega
  rw [step_lead lead]
  · show follow make 2 (n / 262144 * 64 + n / 4096 % 64) 2 (tail (n / 64) :: tail n :: bs) = _
    rw [follow_tail, follow_tail, code]
    rfl
  · simp only [apply_ite UInt8.toNat, UInt8.reduceToNat]
    split <;> omega
  · simp only [apply_ite UInt8.toNat, UInt8.reduceToNat]
    split <;> omega

/-- A step takes the octets of one code point. -/
theorem Encodes.step (h : Encodes n octets) :
    step make (octets ++ bs) = .symbol (make n) octets.length bs := by
  cases h with
  | one high => exact step_one high
  | two low high => exact step_two low high
  | three low high whole => exact step_three low high whole
  | four low high => exact step_four low high

/-- The second octet of a character keeps it from being half of a surrogate pair. -/
theorem Encodes.whole (h : Encodes n octets) {b : UInt8} {r : List UInt8}
    (starts : octets ++ bs = 0xed :: b :: r) : b < 0xa0 := by
  have number (k : Nat) : UInt8.ofNat k = 0xed → k % 256 = 0xed :=
    (UInt8.ofNat_eq_iff_mod_eq_toNat k 0xed).mp
  cases h with
  | one high =>
    have first := number _ (List.cons.inj starts).1
    omega
  | two low high =>
    have first := number _ (List.cons.inj starts).1
    omega
  | three low high whole =>
    obtain ⟨first, others⟩ := List.cons.inj starts
    obtain ⟨rfl, -⟩ := List.cons.inj others
    have first := number _ first
    rw [UInt8.lt_iff_toNat_lt, toNat_tail]
    show n / 64 % 64 + 0x80 < 0xa0
    omega
  | four low high =>
    have first := number _ (List.cons.inj starts).1
    omega

theorem lenientStep_eq_step (whole : ∀ b r, bs = 0xed :: b :: r → b < 0xa0) :
    lenientStep bs = Utf8.step .ofNumber bs := by
  unfold lenientStep
  split
  · rename_i b c r
    have half : ¬(0xa0 ≤ b && continues b && continues c) = true := by
      intro half
      simp only [Bool.and_eq_true, decide_eq_true_eq] at half
      exact UInt8.not_lt.mpr half.1.1 (whole b _ rfl)
    rw [if_neg half]
  · rfl

theorem lenientStep_encode (c : Char) (bs : List UInt8) :
    lenientStep (String.utf8EncodeChar c ++ bs) =
      .symbol (.char c) (String.utf8EncodeChar c).length bs := by
  have encodes := encodes_utf8EncodeChar c
  rw [lenientStep_eq_step fun b r starts => encodes.whole starts, encodes.step,
    Code.ofNumber_toNat]

/-! ## Whole texts -/

@[simp] theorem encode_cons (c : Char) (cs : List Char) :
    encode (c :: cs) = String.utf8EncodeChar c ++ encode cs := List.flatMap_cons

theorem encode_append (a b : List Char) : encode (a ++ b) = encode a ++ encode b :=
  List.flatMap_append

theorem Encodes.ne_nil (h : Encodes n octets) : octets ≠ [] := by
  cases h <;> exact List.cons_ne_nil _ _

theorem utf8EncodeChar_ne_nil (c : Char) : String.utf8EncodeChar c ≠ [] :=
  (encodes_utf8EncodeChar c).ne_nil

theorem length_le_length_encode (cs : List Char) : cs.length ≤ (encode cs).length := by
  induction cs with
  | nil => exact Nat.le_refl _
  | cons c cs ih =>
    have first := List.length_pos_iff.mpr (utf8EncodeChar_ne_nil c)
    rw [encode_cons, List.length_append, List.length_cons]
    omega

/-- A step for each character is fuel enough. -/
theorem decodeFrom_encode {codec : String} {cs : List Char} {fuel : Nat} (fits : cs.length ≤ fuel)
    (start : Nat) (read : List Code) :
    decodeFrom codec lenientStep fuel start read (encode cs) =
      .ok (read.reverse ++ cs.map .char) := by
  induction cs generalizing fuel start read with
  | nil => cases fuel <;> simp [encode, decodeFrom]
  | cons c cs ih =>
    obtain ⟨fuel, rfl⟩ : ∃ n, fuel = n + 1 := ⟨fuel - 1, by rw [List.length_cons] at fits; omega⟩
    have step := lenientStep_encode c (encode cs)
    obtain ⟨b, r, starts⟩ := List.exists_cons_of_ne_nil (utf8EncodeChar_ne_nil c)
    rw [starts] at step
    rw [encode_cons, starts, List.cons_append, decodeFrom, ← List.cons_append, step]
    dsimp only
    rw [ih (Nat.le_of_succ_le_succ fits)]
    simp

theorem decodeLenient_encode (cs : List Char) :
    decodeLenient (encode cs) = .ok (cs.map .char) :=
  decodeFrom_encode (length_le_length_encode cs) 0 []

/-! ## What encoding octets show -/

/-- No octet is one of the marks of wide units, and only that of a null is zero. -/
theorem Encodes.octet (h : Encodes n octets) :
    ∀ b ∈ octets, b.toNat < 0xf8 ∧ (b = 0 → n = 0) := by
  have number (k : Nat) (small : k < 0xf8) (zero : k = 0 → n = 0) :
      (UInt8.ofNat k).toNat < 0xf8 ∧ (UInt8.ofNat k = 0 → n = 0) := by
    have same : (UInt8.ofNat k).toNat = k :=
      UInt8.toNat_ofNat_of_lt' (Nat.lt_trans small (by decide))
    refine ⟨by omega, fun null => zero ?_⟩
    rw [← same, null]
    rfl
  have tails (m : Nat) : (tail m).toNat < 0xf8 ∧ (tail m = 0 → n = 0) :=
    number _ (by omega) (by omega)
  intro b hb
  cases h with
  | one high =>
    obtain rfl := List.mem_singleton.mp hb
    exact number n (by omega) id
  | two low high =>
    rcases List.mem_cons.mp hb with rfl | hb
    · exact number _ (by omega) (by omega)
    · obtain rfl := List.mem_singleton.mp hb
      exact tails n
  | three low high whole =>
    rcases List.mem_cons.mp hb with rfl | hb
    · exact number _ (by omega) (by omega)
    · obtain rfl | rfl : b = tail (n / 64) ∨ b = tail n := by simpa using hb
      · exact tails _
      · exact tails _
  | four low high =>
    rcases List.mem_cons.mp hb with rfl | hb
    · exact number _ (by omega) (by omega)
    · obtain rfl | rfl | rfl : b = tail (n / 4096) ∨ b = tail (n / 64) ∨ b = tail n := by
        simpa using hb
      · exact tails _
      · exact tails _
      · exact tails _

theorem mem_encode {cs : List Char} {b : UInt8} (h : b ∈ encode cs) :
    b.toNat < 0xf8 ∧ (b = 0 → '\x00' ∈ cs) := by
  obtain ⟨c, hc, hb⟩ := List.mem_flatMap.mp h
  obtain ⟨small, zero⟩ := (encodes_utf8EncodeChar c).octet b hb
  refine ⟨small, fun null => ?_⟩
  obtain rfl : c = '\x00' := Char.toNat_inj.mp (zero null)
  exact hc

/-- The first octets are those of the first characters. -/
theorem mem_encode_take {cs : List Char} {b : UInt8} {k : Nat} (h : b ∈ (encode cs).take k) :
    b ∈ encode (cs.take k) := by
  have parts : encode cs = encode (cs.take k) ++ encode (cs.drop k) := by
    rw [← encode_append, List.take_append_drop]
  rcases Nat.le_total k cs.length with short | long
  · have fits := length_le_length_encode (cs.take k)
    rw [List.length_take, Nat.min_eq_left short] at fits
    rw [parts, List.take_append_of_le_length fits] at h
    exact List.mem_of_mem_take h
  · rw [List.take_of_length_le long]
    exact List.mem_of_mem_take h

end Utf8

/-- Without zeros and marks octets show UTF-8. -/
theorem sniff_eq_utf8 {bs : List UInt8} (no_zero : ∀ b ∈ bs.take 4, b ≠ 0)
    (no_wide : ∀ b ∈ bs, b.toNat < 0xf8) (no_mark : ∀ r, bs ≠ 0xef :: 0xbb :: 0xbf :: r) :
    Encoding.sniff bs = .utf8 0 := by
  unfold Encoding.sniff
  split
  · exact absurd rfl (no_zero 0 (by simp))
  · exact absurd (no_wide 0xff (by simp)) (by decide)
  · exact absurd (no_wide 0xfe (by simp)) (by decide)
  · exact absurd (no_wide 0xff (by simp)) (by decide)
  · exact absurd rfl (no_mark _)
  · unfold Encoding.ofZeros
    split
    · rw [if_neg (no_zero _ (by simp)), if_neg (no_zero _ (by simp))]
    · rw [if_neg (no_zero _ (by simp)), if_neg (no_zero _ (by simp))]
    · rfl

/-- The octets of a byte order mark. -/
def markOctets : List UInt8 := [0xef, 0xbb, 0xbf]

theorem utf8EncodeChar_mark : String.utf8EncodeChar '\ufeff' = markOctets := by decide

theorem decodeSniffed_encode {cs : List Char} (unmarked : cs.head? ≠ some '\ufeff')
    (no_null : '\x00' ∉ cs.take 4) : decodeSniffed (Utf8.encode cs) = .ok (cs.map .char) := by
  have no_mark : ∀ r, Utf8.encode cs ≠ markOctets ++ r := by
    intro r marked
    cases cs with
    | nil => cases marked
    | cons c cs =>
      -- The decoder takes the first character off the octets, and off a mark it takes a mark.
      have step := Utf8.lenientStep_encode c (Utf8.encode cs)
      rw [← Utf8.encode_cons, marked, ← utf8EncodeChar_mark, Utf8.lenientStep_encode] at step
      obtain ⟨same, -⟩ := DecodeStep.symbol.inj step
      exact unmarked (congrArg some (Code.char.inj same).symm)
  have shown : Encoding.sniff (Utf8.encode cs) = .utf8 0 := by
    refine sniff_eq_utf8 (fun b hb zero => no_null ?_) (fun b hb => (Utf8.mem_encode hb).1) no_mark
    exact (Utf8.mem_encode (Utf8.mem_encode_take hb)).2 zero
  rw [decodeSniffed, shown]
  exact Utf8.decodeLenient_encode cs

theorem decodeSniffed_mark (cs : List Char) :
    decodeSniffed (markOctets ++ Utf8.encode cs) = .ok (cs.map .char) := by
  have shown : Encoding.sniff (markOctets ++ Utf8.encode cs) = .utf8 3 := rfl
  rw [decodeSniffed, shown]
  exact Utf8.decodeLenient_encode cs

end Text

end FieldProgram

import FieldProgram.Proofs.Text.Utf8

/-!
# Octets that decode

Where octets decode to a text in UTF-8, they are the octets of that text: no text has other octets.
So a decoder that lets more pass reads the same text from them.

* `encodes_of_step`: one step of the decoder takes the octets of a code point;
* `eq_encode_of_decode`: octets that decode are those that encoding gives;
* `decodeSniffed_of_decode`: where the encoding is not given, they decode to the same text.
-/

namespace FieldProgram.Text

namespace Utf8

variable {α : Type} {make : Nat → α} {x : α} {bs rest : List UInt8} {b : UInt8}

/-! ## Octets that go on with a number -/

theorem continues_iff : continues b = true ↔ 0x80 ≤ b.toNat ∧ b.toNat ≤ 0xbf := by
  simp only [continues, Bool.and_eq_true, decide_eq_true_eq, UInt8.le_iff_toNat_le]
  rfl

theorem tail_eq_of_mod {n : Nat} (h : continues b = true) (same : n % 64 = b.toNat % 64) :
    tail n = b := by
  obtain ⟨low, high⟩ := continues_iff.mp h
  apply UInt8.toNat_inj.mp
  rw [toNat_tail]
  omega

theorem follow_zero_eq_symbol {code taken count : Nat}
    (h : follow make 0 code taken bs = .symbol x count rest) : make code = x ∧ bs = rest := by
  obtain ⟨same, -, rest⟩ := DecodeStep.symbol.inj h
  exact ⟨same, rest⟩

theorem follow_succ_eq_symbol {left code taken count : Nat}
    (h : follow make (left + 1) code taken bs = .symbol x count rest) :
    ∃ b r, bs = b :: r ∧ continues b = true ∧
      follow make left (code * 64 + b.toNat % 64) (taken + 1) r = .symbol x count rest := by
  cases bs with
  | nil => cases h
  | cons b r =>
    rw [follow] at h
    split at h
    · rename_i goes_on
      exact ⟨b, r, rfl, goes_on, h⟩
    · cases h

/-! ## One step -/

/-- What the lead octet of a number says: its share of the number, how many octets follow, and the
bounds of the first of them. -/
inductive Leads : (a : Nat) → Lead → Prop
  | two {share : Nat} (low : 2 ≤ share) (high : share < 32) :
    Leads (share + 0xc0) ⟨share, 1, 0x80, 0xbf⟩
  | three {share : Nat} (high : share < 16) : Leads (share + 0xe0)
    ⟨share, 2, if share = 0 then 0xa0 else 0x80, if share = 13 then 0x9f else 0xbf⟩
  | four {share : Nat} (high : share < 5) : Leads (share + 0xf0)
    ⟨share, 3, if share = 0 then 0x90 else 0x80, if share = 4 then 0x8f else 0xbf⟩

theorem leads_of_lead? {a : UInt8} {l : Lead} (h : lead? a = some l) : Leads a.toNat l := by
  have known : ∀ k < 0x100, lead? (UInt8.ofNat k) ≠ none → 0xc2 ≤ k ∧ k < 0xf5 := by
    decide +kernel
  obtain ⟨low, high⟩ := known a.toNat a.toNat_lt (by rw [UInt8.ofNat_toNat, h]; simp)
  have announced (l' : Lead) (h' : lead? (UInt8.ofNat a.toNat) = some l') : l = l' := by
    rw [UInt8.ofNat_toNat, h] at h'
    exact Option.some.inj h'
  by_cases two : a.toNat < 0xe0
  · obtain ⟨share, same⟩ := Nat.exists_eq_add_of_le' (show 0xc0 ≤ a.toNat by omega)
    rw [same] at announced ⊢
    rw [announced _ (lead?_two share (by omega) (by omega))]
    exact .two (by omega) (by omega)
  · by_cases three : a.toNat < 0xf0
    · obtain ⟨share, same⟩ := Nat.exists_eq_add_of_le' (show 0xe0 ≤ a.toNat by omega)
      rw [same] at announced ⊢
      rw [announced _ (lead?_three share (by omega))]
      exact .three (by omega)
    · obtain ⟨share, same⟩ := Nat.exists_eq_add_of_le' (show 0xf0 ≤ a.toNat by omega)
      rw [same] at announced ⊢
      rw [announced _ (lead?_four share (by omega))]
      exact .four (by omega)

/-- The octets behind a lead octet make up a number together with its share. -/
theorem encodes_of_follow {a : UInt8} {l : Lead} {count : Nat} (leads : Leads a.toNat l)
    (low : l.low.toNat ≤ b.toNat) (high : b.toNat ≤ l.high.toNat)
    (h : follow make (l.follow - 1) (extend l.share b) 2 bs = .symbol x count rest) :
    ∃ n octets, Encodes n octets ∧ a :: b :: bs = octets ++ rest ∧ x = make n := by
  generalize number : a.toNat = k at leads
  have lead (m : Nat) (same : m = k) : UInt8.ofNat m = a := by
    rw [same, ← number, UInt8.ofNat_toNat]
  cases leads with
  | @two share least most =>
    have goes_on : continues b = true := continues_iff.mpr ⟨low, high⟩
    obtain ⟨same, rfl⟩ := follow_zero_eq_symbol h
    have encodes := Encodes.two (n := share * 64 + b.toNat % 64) (by omega) (by omega)
    rw [lead _ (by omega), tail_eq_of_mod goes_on (by omega)] at encodes
    exact ⟨_, _, encodes, rfl, same.symm⟩
  | @three share most =>
    obtain ⟨c, r, rfl, goes_on', h⟩ := follow_succ_eq_symbol h
    obtain ⟨same, rfl⟩ := follow_zero_eq_symbol h
    have bounds : 0x80 ≤ b.toNat ∧ b.toNat ≤ 0xbf ∧ (share = 0 → 0xa0 ≤ b.toNat) ∧
        (share = 13 → b.toNat ≤ 0x9f) := by
      simp only [apply_ite UInt8.toNat, UInt8.reduceToNat] at low high
      split at low <;> split at high <;> omega
    have goes_on : continues b = true := continues_iff.mpr ⟨bounds.1, bounds.2.1⟩
    have encodes := Encodes.three (n := (share * 64 + b.toNat % 64) * 64 + c.toNat % 64)
      (by omega) (by omega) (by omega)
    rw [lead _ (by omega), tail_eq_of_mod goes_on (by omega),
      tail_eq_of_mod goes_on' (by omega)] at encodes
    exact ⟨_, _, encodes, rfl, same.symm⟩
  | @four share most =>
    obtain ⟨c, r, rfl, goes_on', h⟩ := follow_succ_eq_symbol h
    obtain ⟨d, r, rfl, goes_on'', h⟩ := follow_succ_eq_symbol h
    obtain ⟨same, rfl⟩ := follow_zero_eq_symbol h
    have bounds : 0x80 ≤ b.toNat ∧ b.toNat ≤ 0xbf ∧ (share = 0 → 0x90 ≤ b.toNat) ∧
        (share = 4 → b.toNat ≤ 0x8f) := by
      simp only [apply_ite UInt8.toNat, UInt8.reduceToNat] at low high
      split at low <;> split at high <;> omega
    have goes_on : continues b = true := continues_iff.mpr ⟨bounds.1, bounds.2.1⟩
    have encodes := Encodes.four
      (n := ((share * 64 + b.toNat % 64) * 64 + c.toNat % 64) * 64 + d.toNat % 64)
      (by omega) (by omega)
    rw [lead _ (by omega), tail_eq_of_mod goes_on (by omega), tail_eq_of_mod goes_on' (by omega),
      tail_eq_of_mod goes_on'' (by omega)] at encodes
    exact ⟨_, _, encodes, rfl, same.symm⟩

/-- A step that finds a code point takes the octets of it. -/
theorem encodes_of_step {count : Nat} (h : step make bs = .symbol x count rest) :
    ∃ n octets, Encodes n octets ∧ bs = octets ++ rest ∧ x = make n := by
  cases bs with
  | nil => cases h
  | cons a bs =>
    unfold step at h
    dsimp only at h
    split at h
    · rename_i small
      obtain ⟨rfl, -, rfl⟩ := DecodeStep.symbol.inj h
      have one := Encodes.one (UInt8.lt_iff_toNat_lt.mp small)
      rw [UInt8.ofNat_toNat] at one
      exact ⟨_, _, one, rfl, rfl⟩
    · split at h
      · cases h
      · cases h
      · rename_i l b bs lead
        split at h
        · rename_i fits
          simp only [Bool.and_eq_true, decide_eq_true_eq, UInt8.le_iff_toNat_le] at fits
          exact encodes_of_follow (leads_of_lead? lead) fits.1 fits.2 h
        · cases h

/-! ## Whole texts -/

theorem Encodes.unique {n : Nat} {octets others : List UInt8} (h : Encodes n octets)
    (h' : Encodes n others) : octets = others := by
  cases h <;> cases h' <;> first | rfl | omega

theorem Encodes.eq_utf8EncodeChar {n : Nat} {octets : List UInt8} (h : Encodes n octets) :
    octets = String.utf8EncodeChar (Char.ofNat n) := by
  have valid : n.isValidChar := by
    cases h with
    | one high => exact .inl (by omega)
    | two low high => exact .inl (by omega)
    | three low high whole => exact whole.imp_right fun after => ⟨by omega, by omega⟩
    | four low high => exact .inr ⟨by omega, high⟩
  have encodes := encodes_utf8EncodeChar (Char.ofNat n)
  have number : (Char.ofNat n).toNat = n := by
    rw [Char.ofNat, dif_pos valid]
    rfl
  rw [number] at encodes
  exact h.unique encodes

theorem decodeFrom_eq_ok {codec : String} {fuel start : Nat} {read cs : List Char}
    {octets : List UInt8} (fits : octets.length ≤ fuel)
    (h : decodeFrom codec (step Char.ofNat) fuel start read octets = .ok cs) :
    ∃ text, cs = read.reverse ++ text ∧ octets = encode text := by
  induction fuel generalizing start read octets with
  | zero =>
    obtain rfl := List.length_eq_zero_iff.mp (Nat.le_zero.mp fits)
    rw [decodeFrom] at h
    exact ⟨[], by simpa using (Except.ok.inj h).symm, rfl⟩
  | succ fuel ih =>
    cases octets with
    | nil =>
      rw [decodeFrom] at h
      exact ⟨[], by simpa using (Except.ok.inj h).symm, rfl⟩
    | cons b bs =>
      rw [decodeFrom] at h
      split at h
      · rename_i c count rest taken
        obtain ⟨n, octets, encodes, same, rfl⟩ := encodes_of_step taken
        have shorter : rest.length ≤ fuel := by
          have long := congrArg List.length same
          have some_octet := List.length_pos_iff.mpr encodes.ne_nil
          rw [List.length_append, List.length_cons] at long
          rw [List.length_cons] at fits
          omega
        obtain ⟨text, rfl, rfl⟩ := ih shorter h
        refine ⟨Char.ofNat n :: text, by simp, ?_⟩
        rw [same, encodes.eq_utf8EncodeChar]
        rfl
      · cases h

theorem eq_encode_of_decode {octets : List UInt8} {cs : List Char} (h : decode octets = .ok cs) :
    octets = encode cs := by
  obtain ⟨text, rfl, same⟩ := decodeFrom_eq_ok (Nat.le_refl _) h
  exact same

end Utf8

/-- Octets that decode to a text decode to it where the encoding is not given, too, and a byte order
mark in front is left out. -/
theorem decodeSniffed_of_decode {octets : List UInt8} {cs : List Char}
    (h : Utf8.decode octets = .ok cs) (no_null : '\x00' ∉ cs) :
    (∃ text, cs = '\ufeff' :: text ∧ decodeSniffed octets = .ok (text.map .char)) ∨
      cs.head? ≠ some '\ufeff' ∧ decodeSniffed octets = .ok (cs.map .char) := by
  obtain rfl := Utf8.eq_encode_of_decode h
  by_cases marked : cs.head? = some '\ufeff'
  · obtain ⟨text, rfl⟩ := List.head?_eq_some_iff.mp marked
    refine .inl ⟨text, rfl, ?_⟩
    rw [show Utf8.encode ('\ufeff' :: text) = markOctets ++ Utf8.encode text from rfl]
    exact decodeSniffed_mark text
  · exact .inr ⟨marked, decodeSniffed_encode marked fun null => no_null (List.mem_of_mem_take null)⟩

end FieldProgram.Text

import FieldProgram.Proofs.Numeral.Literal
import FieldProgram.Word.Codec

/-!
# Which documents are words

A document describes a field element by an integer literal for any number that is congruent to its
value, and an address by the mapping of its two parts.

* `Word.decode_eq_ok_iff`: the decoder finds exactly the word described;
* `Word.describedBy_encode`: an encoded word describes the word;
* `Word.text_of_decode`: where there is none, the error can be worded.
-/

namespace FieldProgram

open Numeral

theorem Document.integer_map (ms : List (Text × Document)) (n : Int) :
    (Document.map ms).integer ≠ .ok n := by
  simp [integer, outer, Layer.integer]

/-! ## Errors -/

theorem WordError.fail_ne_ok {α : Type} (e : WordError) (a : α) : fail e ≠ .ok a := by
  unfold fail
  split <;> simp

theorem WordError.text_of_fail {α : Type} {e e' : WordError}
    (h : (fail e : Except WordError α) = .error e') : ∃ s, e'.text = .ok s := by
  unfold fail at h
  split at h
  · rename_i s hs
    obtain rfl := Except.error.inj h
    exact ⟨s, hs⟩
  · obtain rfl := Except.error.inj h
    exact ⟨_, rfl⟩

/-! ## Field elements -/

/-- The field element is the class of the integer. -/
def Felt.Represents (f : Felt) (prime n : Int) : Prop :=
  (f.prime : Int) = prime ∧ (f.value : Int) = n % prime

theorem Felt.reduceValues_eq_ok_iff {n prime : Int} (one_lt : 1 < prime) {f : Felt} :
    reduceValues (.int n) (.int prime) = .ok f ↔ f.Represents prime n := by
  rw [reduceValues_int, reduce]
  obtain ⟨g, hg⟩ : ∃ g, reduce? n prime = some g := ⟨_, dif_pos one_lt⟩
  obtain ⟨value, modulus⟩ := reduce?_value hg
  rw [hg]
  constructor
  · rintro ⟨⟩
    exact ⟨modulus, value⟩
  · rintro ⟨modulus', value'⟩
    have same : g = f := by
      obtain ⟨v, p, _, _⟩ := f
      obtain ⟨v', p', _, _⟩ := g
      simp only at value modulus value' modulus'
      obtain rfl : v' = v := by omega
      obtain rfl : p' = p := by omega
      rfl
    rw [same]

theorem Felt.exists_represents {prime : Int} (one_lt : 1 < prime) (n : Int) :
    ∃ f : Felt, f.Represents prime n := by
  obtain ⟨f, hf⟩ : ∃ f, reduce? n prime = some f := ⟨_, dif_pos one_lt⟩
  obtain ⟨value, modulus⟩ := reduce?_value hf
  exact ⟨f, modulus, value⟩

theorem Felt.represents_value (f : Felt) : f.Represents f.prime f.value := by
  refine ⟨rfl, (Int.emod_eq_of_lt (by omega) ?_).symm⟩
  have := f.value_lt_prime
  omega

theorem Felt.Represents.bounds {f : Felt} {prime n : Int} (h : f.Represents prime n) :
    (f.prime : Int) = prime ∧ (f.value : Int) < prime := by
  obtain ⟨modulus, -⟩ := h
  have := f.value_lt_prime
  exact ⟨modulus, by omega⟩

/-! ## Words -/

namespace Word

/-- The mapping holds the parts of the address and nothing else. -/
def AddressIn (r : Relocatable) (ms : List (Text × Document)) : Prop :=
  (∀ m ∈ ms, m.1 = ("segment_index" : Text) ∨ m.1 = ("offset" : Text)) ∧
    ms.lookup ("segment_index" : Text) = some (.int r.segment) ∧
    ms.lookup ("offset" : Text) = some (.int r.offset)

/-- The document describes the word, for a modulus. -/
def DescribedBy (prime : Int) (w : Word) (d : Document) : Prop :=
  match w with
  | .felt f => ∃ n, d.integer = .ok n ∧ f.Represents prime n
  | .relocatable r => ∃ ms, d = .map ms ∧ AddressIn r ms

theorem isAddressKeys_iff {keys : List Text} :
    isAddressKeys keys = true ↔
      (∀ k ∈ keys, k = ("segment_index" : Text) ∨ k = ("offset" : Text)) ∧
        ("segment_index" : Text) ∈ keys ∧ ("offset" : Text) ∈ keys := by
  simp [isAddressKeys, addressKeys]

theorem mem_keys_of_lookup {ms : List (Text × Document)} {name : Text} {v : Document}
    (found : ms.lookup name = some v) : name ∈ ms.map Prod.fst := by
  obtain ⟨before, after, rfl, -⟩ := List.lookup_eq_some_iff.mp found
  simp

theorem part_eq_ok_iff {name : String} {n : Int} {k : Nat} :
    Relocatable.part name (.int n) = .ok k ↔ n = k := by
  show (if 0 ≤ n then .ok n.toNat else WordError.fail (.badPart name (.int n))) = .ok k ↔ n = k
  split
  · rename_i nonneg
    constructor
    · intro h
      have := Except.ok.inj h
      omega
    · rintro rfl
      rfl
  · rename_i neg
    constructor
    · exact fun h => absurd h (WordError.fail_ne_ok _ _)
    · rintro rfl
      omega

theorem ofValues_eq_ok_iff {s o : Int} {r : Relocatable} :
    Relocatable.ofValues (.int s) (.int o) = .ok r ↔ s = r.segment ∧ o = r.offset := by
  rw [Relocatable.ofValues, Except.bind_eq_ok]
  constructor
  · rintro ⟨s', hs, h⟩
    obtain ⟨o', ho, h⟩ := Except.bind_eq_ok.mp h
    obtain rfl := Except.ok.inj h
    exact ⟨part_eq_ok_iff.mp hs, part_eq_ok_iff.mp ho⟩
  · rintro ⟨hs, ho⟩
    exact ⟨_, part_eq_ok_iff.mpr hs, Except.bind_eq_ok.mpr ⟨_, part_eq_ok_iff.mpr ho, rfl⟩⟩

theorem decodeAddress_eq_ok_iff {ms : List (Text × Document)} {r : Relocatable} :
    decodeAddress ms = .ok r ↔ AddressIn r ms := by
  unfold decodeAddress
  split
  · rename_i keys
    rw [isAddressKeys_iff] at keys
    have only : ∀ m ∈ ms, m.1 = ("segment_index" : Text) ∨ m.1 = ("offset" : Text) :=
      fun m hm => keys.1 m.1 (List.mem_map_of_mem hm)
    split
    · rename_i s o hs ho
      rw [ofValues_eq_ok_iff]
      constructor
      · rintro ⟨rfl, rfl⟩
        exact ⟨only, hs, ho⟩
      · rintro ⟨-, hs', ho'⟩
        exact ⟨Document.int.inj (Option.some.inj (hs.symm.trans hs')),
          Document.int.inj (Option.some.inj (ho.symm.trans ho'))⟩
    · rename_i not_integers
      constructor
      · rintro ⟨⟩
      · rintro ⟨-, hs, ho⟩
        exact absurd ho (not_integers _ _ hs)
  · rename_i keys
    constructor
    · rintro ⟨⟩
    · rintro ⟨only, hs, ho⟩
      refine absurd (isAddressKeys_iff.mpr ⟨?_, mem_keys_of_lookup hs, mem_keys_of_lookup ho⟩) keys
      intro k hk
      obtain ⟨m, hm, rfl⟩ := List.mem_map.mp hk
      exact only m hm

/-- A mapping describes addresses only. -/
theorem describedBy_map_iff {prime : Int} {w : Word} {ms : List (Text × Document)} :
    w.DescribedBy prime (.map ms) ↔ ∃ r, w = .relocatable r ∧ AddressIn r ms := by
  cases w with
  | felt f =>
    refine iff_of_false ?_ (by simp)
    rintro ⟨n, hn, -⟩
    exact Document.integer_map ms n hn
  | relocatable r => simp [DescribedBy]

/-- Everything else describes field elements only. -/
theorem describedBy_iff_of_not_map {prime : Int} {w : Word} {d : Document}
    (not_map : ∀ ms, d ≠ .map ms) :
    w.DescribedBy prime d ↔ ∃ f n, w = .felt f ∧ d.integer = .ok n ∧ f.Represents prime n := by
  cases w with
  | felt f => simp [DescribedBy]
  | relocatable r =>
    refine iff_of_false ?_ (by simp)
    rintro ⟨ms, rfl, -⟩
    exact not_map ms rfl

theorem decode_eq_ok_iff {d : Document} {prime : Int} (one_lt : 1 < prime) {w : Word} :
    decode d prime = .ok w ↔ w.DescribedBy prime d := by
  unfold decode decodeValues
  split
  · rename_i ms
    simp only [describedBy_map_iff, Except.map_eq_ok, decodeAddress_eq_ok_iff]
    exact exists_congr fun r => by rw [and_comm, eq_comm]
  · rename_i not_map
    rw [describedBy_iff_of_not_map not_map]
    split
    · rename_i n hn
      simp only [Except.map_eq_ok, Felt.reduceValues_eq_ok_iff one_lt, hn]
      constructor
      · rintro ⟨f, represents, rfl⟩
        exact ⟨f, n, rfl, rfl, represents⟩
      · rintro ⟨f, _, rfl, ⟨⟩, represents⟩
        exact ⟨f, represents, rfl⟩
    · rename_i fault hfault
      simp [hfault]

/-! ## Encoded words -/

/-- The word is a field element of the modulus or an address. -/
def WellFormed (prime : Int) : Word → Prop
  | .felt f => (f.prime : Int) = prime ∧ 0 ≤ (f.value : Int) ∧ (f.value : Int) < prime
  | .relocatable r => 0 ≤ (r.segment : Int) ∧ 0 ≤ (r.offset : Int)

theorem DescribedBy.wellFormed {prime : Int} {w : Word} {d : Document}
    (h : w.DescribedBy prime d) : w.WellFormed prime := by
  cases w with
  | felt f =>
    obtain ⟨n, -, represents⟩ := h
    obtain ⟨modulus, below⟩ := represents.bounds
    exact ⟨modulus, by omega, below⟩
  | relocatable r => exact ⟨by omega, by omega⟩

theorem describedBy_encode {prime : Int} {w : Word} (h : w.WellFormed prime) :
    w.DescribedBy prime w.encode := by
  cases w with
  | felt f =>
    obtain ⟨rfl, -⟩ := h
    exact ⟨f.value, integerOfText_hexText f.value, f.represents_value⟩
  | relocatable r =>
    refine ⟨_, rfl, ?_, ?_, ?_⟩
    · simp
    · rfl
    · rfl

/-! ## Refused words -/

theorem text_of_part {name : String} {d : Document} {e : WordError}
    (h : Relocatable.part name d = .error e) : ∃ s, e.text = .ok s := by
  unfold Relocatable.part at h
  split at h
  · split at h
    · cases h
    · exact WordError.text_of_fail h
  · exact WordError.text_of_fail h

theorem text_of_decodeAddress {ms : List (Text × Document)} {e : WordError}
    (h : decodeAddress ms = .error e) : ∃ s, e.text = .ok s := by
  unfold decodeAddress at h
  split at h
  · split at h
    · rcases Except.bind_eq_error.mp h with hs | ⟨s', -, h⟩
      · exact text_of_part hs
      · rcases Except.bind_eq_error.mp h with ho | ⟨o', -, ⟨⟩⟩
        exact text_of_part ho
    · cases h
      exact ⟨_, rfl⟩
  · cases h
    exact ⟨_, rfl⟩

theorem text_of_decode {d : Document} {prime : Int} {e : WordError}
    (h : decode d prime = .error e) : ∃ s, e.text = .ok s := by
  unfold decode decodeValues at h
  split at h
  · exact text_of_decodeAddress (Except.map_eq_error.mp h)
  · split at h
    · have h := Except.map_eq_error.mp h
      rw [Felt.reduceValues_int, Felt.reduce] at h
      split at h
      · cases h
      · exact WordError.text_of_fail h
    · cases h
      exact ⟨_, rfl⟩

end Word

end FieldProgram

import FieldProgram.Proofs.Numeral.Grammar
import FieldProgram.Proofs.Word.Described
import Mathlib.Data.Int.ModEq

/-!
# One encoding for each word

Many literals stand for one word: integers that are congruent, as numbers or as texts, and mappings
with the parts of an address in either order. Decoding finds the word, and the word has one
encoding.

* `Document.integer_eq_ok_iff`: the documents that stand for an integer;
* `Word.decode_encode`, `Word.encode_inj_iff`: an encoded word decodes to itself, so that words of
  one modulus are known from their encodings;
* `Word.eq_iff_sameMeaning`: when two literals have one word;
* `Word.decode_canonical`: all of this about the decoder.
-/

namespace FieldProgram

open Numeral

/-! ## Integers -/

/-- The document is the integer, or a text that spells it. -/
def Document.StandsFor (d : Document) (n : Int) : Prop :=
  d = .int n ∨ ∃ t, d = .str t ∧ t.IsLiteral n

theorem Document.integer_eq_ok_iff {d : Document} {n : Int} :
    d.integer = .ok n ↔ d.StandsFor n := by
  cases d with
  | int m => simp [StandsFor, integer, outer, Layer.integer]
  | str t =>
    have read : (str t).integer = .ok n ↔ t.IsLiteral n := integerOfText_eq_ok_iff
    simp [StandsFor, read]
  | _ => simp [StandsFor, integer, outer, Layer.integer]

theorem Document.StandsFor.unique {d : Document} {m n : Int} (h : d.StandsFor m)
    (h' : d.StandsFor n) : m = n :=
  Except.ok.inj ((integer_eq_ok_iff.mpr h).symm.trans (integer_eq_ok_iff.mpr h'))

theorem Document.not_standsFor_map (ms : List (Text × Document)) (n : Int) :
    ¬ (Document.map ms).StandsFor n :=
  fun h => integer_map ms n (integer_eq_ok_iff.mpr h)

/-- Two integers have one class exactly when they are congruent. -/
theorem Felt.Represents.eq_iff {f g : Felt} {prime m n : Int} (hf : f.Represents prime m)
    (hg : g.Represents prime n) : f = g ↔ m ≡ n [ZMOD prime] := by
  obtain ⟨modulus, value⟩ := hf
  obtain ⟨modulus', value'⟩ := hg
  constructor
  · rintro rfl
    exact value.symm.trans value'
  · intro congruent
    have congruent : m % prime = n % prime := congruent
    obtain ⟨v, p, _, _⟩ := f
    obtain ⟨v', p', _, _⟩ := g
    simp only at modulus value modulus' value'
    obtain rfl : v = v' := by omega
    obtain rfl : p = p' := by omega
    rfl

namespace Word

variable {prime : Int}

/-! ## Encodings -/

theorem decode_encode (one_lt : 1 < prime) {w : Word} (wf : w.WellFormed prime) :
    decode w.encode prime = .ok w :=
  (decode_eq_ok_iff one_lt).mpr (describedBy_encode wf)

/-- The encoding leaves the modulus out, but it decodes to the word. -/
theorem encode_inj_iff (one_lt : 1 < prime) {v w : Word} (hv : v.WellFormed prime)
    (hw : w.WellFormed prime) : v = w ↔ v.encode = w.encode := by
  constructor
  · exact congrArg encode
  · intro same
    have read := decode_encode one_lt hv
    rw [same, decode_encode one_lt hw] at read
    exact (Except.ok.inj read).symm

/-! ## Literals -/

/-- The literals are addresses with the same parts, or integers that are congruent. -/
def SameMeaning (prime : Int) (d e : Document) : Prop :=
  (∃ r ms ns, d = .map ms ∧ e = .map ns ∧ AddressIn r ms ∧ AddressIn r ns) ∨
    ∃ m n, d.StandsFor m ∧ e.StandsFor n ∧ m ≡ n [ZMOD prime]

theorem AddressIn.unique {r s : Relocatable} {ms : List (Text × Document)} (h : AddressIn r ms)
    (h' : AddressIn s ms) : r = s := by
  obtain ⟨-, segment, offset⟩ := h
  obtain ⟨-, segment', offset'⟩ := h'
  have first := Document.int.inj (Option.some.inj (segment.symm.trans segment'))
  have second := Document.int.inj (Option.some.inj (offset.symm.trans offset'))
  obtain ⟨_, _⟩ := r
  obtain ⟨_, _⟩ := s
  simp_all

theorem eq_iff_sameMeaning {d e : Document} {v w : Word} (hv : v.DescribedBy prime d)
    (hw : w.DescribedBy prime e) : v = w ↔ SameMeaning prime d e := by
  cases v with
  | felt f =>
    obtain ⟨m, hm, hf⟩ := hv
    have hm := Document.integer_eq_ok_iff.mp hm
    cases w with
    | felt g =>
      obtain ⟨n, hn, hg⟩ := hw
      have hn := Document.integer_eq_ok_iff.mp hn
      rw [Word.felt.injEq, hf.eq_iff hg]
      constructor
      · exact fun congruent => .inr ⟨m, n, hm, hn, congruent⟩
      · rintro (⟨_, ms, _, rfl, -⟩ | ⟨m', n', hm', hn', congruent⟩)
        · exact absurd hm (Document.not_standsFor_map ms m)
        · rwa [hm.unique hm', hn.unique hn']
    | relocatable s =>
      obtain ⟨ns, rfl, -⟩ := hw
      refine iff_of_false (by simp) ?_
      rintro (⟨_, ms, _, rfl, -⟩ | ⟨_, n, -, hn, -⟩)
      · exact Document.not_standsFor_map ms m hm
      · exact Document.not_standsFor_map ns n hn
  | relocatable r =>
    obtain ⟨ms, rfl, hr⟩ := hv
    cases w with
    | felt g =>
      obtain ⟨n, hn, -⟩ := hw
      have hn := Document.integer_eq_ok_iff.mp hn
      refine iff_of_false (by simp) ?_
      rintro (⟨_, _, ns, -, rfl, -⟩ | ⟨m, _, hm, -⟩)
      · exact Document.not_standsFor_map ns n hn
      · exact Document.not_standsFor_map ms m hm
    | relocatable s =>
      obtain ⟨ns, rfl, hs⟩ := hw
      rw [Word.relocatable.injEq]
      constructor
      · rintro rfl
        exact .inl ⟨r, ms, ns, rfl, rfl, hr, hs⟩
      · rintro (⟨t, _, _, ⟨⟩, ⟨⟩, ht, ht'⟩ | ⟨m, _, hm, -⟩)
        · exact (hr.unique ht).trans (ht'.unique hs)
        · exact absurd hm (Document.not_standsFor_map ms m)

/-! ## Mappings -/

/-- The member is an integer from zero on. -/
def HasPart (name : Text) (ms : List (Text × Document)) : Prop :=
  ∃ n : Int, ms.lookup name = some (.int n) ∧ 0 ≤ n

theorem exists_addressIn_iff {ms : List (Text × Document)} :
    (∃ r, AddressIn r ms) ↔
      (∀ key, key ∈ ms.map Prod.fst ↔
        key = ("segment_index" : Text) ∨ key = ("offset" : Text)) ∧
        HasPart "segment_index" ms ∧ HasPart "offset" ms := by
  constructor
  · rintro ⟨r, only, segment, offset⟩
    refine ⟨fun key => ⟨fun present => ?_, ?_⟩, ⟨_, segment, by omega⟩, ⟨_, offset, by omega⟩⟩
    · obtain ⟨m, hm, rfl⟩ := List.mem_map.mp present
      exact only m hm
    · rintro (rfl | rfl)
      · exact mem_keys_of_lookup segment
      · exact mem_keys_of_lookup offset
  · rintro ⟨keys, ⟨s, segment, hs⟩, o, offset, ho⟩
    refine ⟨⟨s.toNat, o.toNat⟩, fun m hm => (keys m.1).mp (List.mem_map_of_mem hm), ?_, ?_⟩
    · rw [segment, Int.toNat_of_nonneg hs]
    · rw [offset, Int.toNat_of_nonneg ho]

theorem decode_map_iff (one_lt : 1 < prime) {ms : List (Text × Document)} :
    (∃ w, decode (.map ms) prime = .ok w) ↔ ∃ r, AddressIn r ms := by
  simp only [decode_eq_ok_iff one_lt]
  constructor
  · rintro ⟨f | r, h⟩
    · obtain ⟨n, hn, -⟩ := h
      exact absurd hn (Document.integer_map ms n)
    · obtain ⟨_, ⟨⟩, h⟩ := h
      exact ⟨r, h⟩
  · rintro ⟨r, h⟩
    exact ⟨.relocatable r, ms, rfl, h⟩

/-! ## The decoder -/

theorem decode_canonical (one_lt : 1 < prime) :
    (∀ f : Felt, f.prime = prime → decode (felt f).encode prime = .ok (felt f)) ∧
    (∀ r, decode (relocatable r).encode prime = .ok (relocatable r)) ∧
    (∀ d e v w, decode d prime = .ok v → decode e prime = .ok w →
      (v = w ↔ v.encode = w.encode) ∧ (v = w ↔ SameMeaning prime d e)) ∧
    ∀ ms, (∃ w, decode (.map ms) prime = .ok w) ↔
      (∀ key, key ∈ ms.map Prod.fst ↔
        key = ("segment_index" : Text) ∨ key = ("offset" : Text)) ∧
        HasPart "segment_index" ms ∧ HasPart "offset" ms := by
  refine ⟨fun f modulus => ?_, fun r => ?_, fun d e v w hv hw => ?_, fun ms => ?_⟩
  · have := f.value_lt_prime
    exact decode_encode one_lt ⟨modulus, by omega, by omega⟩
  · exact decode_encode one_lt ⟨by omega, by omega⟩
  · have hv := (decode_eq_ok_iff one_lt).mp hv
    have hw := (decode_eq_ok_iff one_lt).mp hw
    exact ⟨encode_inj_iff one_lt hv.wellFormed hw.wellFormed, eq_iff_sameMeaning hv hw⟩
  · rw [decode_map_iff one_lt, exists_addressIn_iff]

/-- In the field of 17 elements, two literals with one word and an address written backwards. -/
theorem decode_canonical_seventeen :
    decode (felt ⟨16, 17, by decide, by decide⟩).encode 17 =
        .ok (felt ⟨16, 17, by decide, by decide⟩) ∧
      SameMeaning 17 (.str "-1") (.str "0x21") ∧
      ∃ w, decode (.map [("offset", .int 3), ("segment_index", .int 0)]) 17 = .ok w := by
  obtain ⟨written, -, same, mappings⟩ := decode_canonical (by decide : (1 : Int) < 17)
  have left : decode (.str "-1") 17 = .ok (felt ⟨16, 17, by decide, by decide⟩) := rfl
  have right : decode (.str "0x21") 17 = .ok (felt ⟨16, 17, by decide, by decide⟩) := rfl
  refine ⟨written _ rfl, (same _ _ _ _ left right).2.mp rfl, (mappings _).mpr ⟨fun key => ?_, ?_⟩⟩
  · simp [or_comm]
  · exact ⟨⟨0, rfl, by decide⟩, 3, rfl, by decide⟩

end Word

end FieldProgram

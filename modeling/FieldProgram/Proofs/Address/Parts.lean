import FieldProgram.Proofs.Address.Grammar

/-!
# Reading integers, offsets and bases

Each reader takes exactly what the grammar allows and leaves the rest. An integer is read up to
where neither a digit nor a parenthesis follows, which is where a text ends or a bracket closes.

* `signedDigits?_sound`, `signedDigits?_append`: integers;
* `offsetOf_sound`, `offsetOf_append`: offsets, also those that are not written;
* `ofChars?_eq_some_iff`: the form of a base.
-/

namespace FieldProgram.Address

open Numeral Text

/-- Nothing is left, or a bracket closes. -/
def Stops (rest : List Char) : Prop := rest = [] ∨ ∃ after, rest = ']' :: after

theorem Stops.not_digit {rest : List Char} (stops : Stops rest) :
    ∀ c ∈ rest.head?, isDecimalDigit c = false := by
  rcases stops with rfl | ⟨after, rfl⟩
  · simp
  · intro c hc
    obtain rfl := Option.some.inj hc
    decide

/-! ## Integers -/

theorem optionally_eq {c : Char} {cs rest : List Char} {present : Bool}
    (h : optionally c cs = (present, rest)) : cs = only c present ++ rest := by
  unfold optionally at h
  split at h
  · cases h
    rfl
  · split at h
    · rename_i same
      cases h
      rw [same]
      rfl
    · cases h
      rfl

theorem optionally_only {c : Char} {present : Bool} {rest : List Char}
    (absent : present = false → ∀ d ∈ rest.head?, d ≠ c) :
    optionally c (only c present ++ rest) = (present, rest) := by
  cases present with
  | true => simp [only, optionally]
  | false =>
    cases rest with
    | nil => rfl
    | cons d rest =>
      have other : d ≠ c := absent rfl d rfl
      simp [only, optionally, other]

theorem mapM_decimalDigit? {cs : List Char} (digits : ∀ c ∈ cs, isDecimalDigit c = true) :
    cs.mapM decimalDigit? = some (cs.filterMap decimalDigit?) := by
  induction cs with
  | nil => rfl
  | cons c cs ih =>
    obtain ⟨first, others⟩ := List.forall_mem_cons.mp digits
    obtain ⟨d, hd⟩ := Option.isSome_iff_exists.mp first
    simp [hd, ih others]

theorem isDigits_filterMap {cs : List Char} (digits : ∀ c ∈ cs, isDecimalDigit c = true)
    (some_digit : cs.filterMap decimalDigit? ≠ []) :
    IsDigits (cs.filterMap decimalDigit?) cs := by
  refine ⟨?_, mapM_decimalDigit? digits⟩
  rintro rfl
  exact some_digit rfl

theorem IsDigits.filterMap {digits : List Nat} {cs : List Char} (h : IsDigits digits cs) :
    cs.filterMap decimalDigit? = digits := by
  have := mapM_decimalDigit? (isDecimalDigit_of_isDigits h)
  rw [h.2] at this
  exact (Option.some.inj this).symm

theorem IsDigits.ne_nil {digits : List Nat} {cs : List Char} (h : IsDigits digits cs) :
    digits ≠ [] := by
  rintro rfl
  obtain ⟨c, cs, rfl⟩ := List.exists_cons_of_ne_nil h.1
  obtain ⟨d, hd⟩ := Option.isSome_iff_exists.mp
    (isDecimalDigit_of_isDigits h c (List.mem_cons_self ..))
  have := h.filterMap
  simp [hd] at this

theorem signedDigits?_sound {cs rest : List Char} {s : SignedDigits}
    (h : signedDigits? cs = some (s, rest)) :
    ∃ number, IsInteger .read s number ∧ cs = number ++ rest := by
  unfold signedDigits? at h
  obtain ⟨opening, cs₁, hopening⟩ : ∃ b r, optionally '(' cs = (b, r) := ⟨_, _, rfl⟩
  obtain ⟨negative, cs₂, hnegative⟩ : ∃ b r, optionally '-' cs₁ = (b, r) := ⟨_, _, rfl⟩
  obtain ⟨closing, after, hclosing⟩ :
    ∃ b r, optionally ')' (cs₂.dropWhile isDecimalDigit) = (b, r) := ⟨_, _, rfl⟩
  simp only [hopening, hnegative, hclosing] at h
  split at h
  · cases h
  · rename_i ds some_digit
    obtain ⟨rfl, rfl⟩ := Prod.mk.inj (Option.some.inj h)
    have all : ∀ c ∈ cs₂.takeWhile isDecimalDigit, isDecimalDigit c = true :=
      fun c hc => List.mem_takeWhile_imp hc
    have digits := isDigits_filterMap all some_digit
    refine ⟨_, ⟨opening, closing, _, trivial, digits, rfl⟩, ?_⟩
    calc cs = only '(' opening ++ (only '-' negative ++
          (cs₂.takeWhile isDecimalDigit ++ (only ')' closing ++ after))) := by
          rw [optionally_eq hopening, optionally_eq hnegative, ← optionally_eq hclosing,
            List.takeWhile_append_dropWhile]
      _ = _ := by simp only [List.append_assoc]

theorem IsDigits.first {digits : List Nat} {cs : List Char} (h : IsDigits digits cs) :
    ∃ c ds, cs = c :: ds ∧ c ≠ '-' ∧ c ≠ '(' := by
  obtain ⟨c, ds, rfl⟩ := List.exists_cons_of_ne_nil h.1
  have digit := isDecimalDigit_of_isDigits h c (List.mem_cons_self ..)
  refine ⟨c, ds, rfl, ?_, ?_⟩
  · rintro rfl
    exact absurd digit (by decide)
  · rintro rfl
    exact absurd digit (by decide)

theorem signedDigits?_append {g : Grammar} {s : SignedDigits} {number rest : List Char}
    (h : IsInteger g s number) (stops : Stops rest) :
    signedDigits? (number ++ rest) = some (s, rest) := by
  obtain ⟨opening, closing, ds, -, digits, rfl⟩ := h
  obtain ⟨c, cs, hds, ne_minus, ne_open⟩ := digits.first
  have opened : optionally '(' (only '(' opening ++ (only '-' s.negative ++
      (ds ++ (only ')' closing ++ rest)))) =
      (opening, only '-' s.negative ++ (ds ++ (only ')' closing ++ rest))) := by
    refine optionally_only fun _ d hd => ?_
    cases hneg : s.negative with
    | true =>
      obtain rfl : '-' = d := by simpa [hneg, only] using hd
      decide
    | false =>
      obtain rfl : c = d := by simpa [hneg, only, hds] using hd
      exact ne_open
  have signed : optionally '-' (only '-' s.negative ++ (ds ++ (only ')' closing ++ rest))) =
      (s.negative, ds ++ (only ')' closing ++ rest)) := by
    refine optionally_only fun _ d hd => ?_
    obtain rfl : c = d := by simpa [hds] using hd
    exact ne_minus
  have behind : ∀ d ∈ (only ')' closing ++ rest).head?, isDecimalDigit d = false := by
    cases closing with
    | true =>
      intro d hd
      obtain rfl : ')' = d := by simpa [only] using hd
      decide
    | false => exact stops.not_digit
  have all := isDecimalDigit_of_isDigits digits
  have closed : optionally ')' (only ')' closing ++ rest) = (closing, rest) := by
    refine optionally_only fun _ d hd => ?_
    rcases stops with rfl | ⟨after, rfl⟩
    · cases hd
    · obtain rfl := Option.some.inj hd
      decide
  obtain ⟨n, ns, hns⟩ := List.exists_cons_of_ne_nil digits.ne_nil
  unfold signedDigits?
  simp only [List.append_assoc, opened, signed, takeWhile_run all behind, dropWhile_run all behind,
    closed, digits.filterMap, hns]
  rw [← hns]

/-! ## Offsets -/

theorem IsInteger.start_not_blank {g : Grammar} {s : SignedDigits} {cs : List Char}
    (h : IsInteger g s cs) : ∀ c ∈ cs.head?, isBlank c = false := by
  obtain ⟨c, rest, rfl, start⟩ := h.starts
  intro d hd
  obtain rfl := Option.some.inj hd
  rcases start with rfl | rfl | digit
  · decide
  · decide
  · exact isBlank_of_isDecimalDigit digit

theorem plus?_sound {cs rest : List Char} {s : SignedDigits} (h : plus? cs = some (s, rest)) :
    ∃ offset, IsOffset .read (some s) offset ∧ cs = offset ++ rest := by
  obtain ⟨before, blank, split⟩ := exists_trimStart cs
  unfold plus? at h
  split at h
  · rename_i after plus
    obtain ⟨behind, blank', split'⟩ := exists_trimStart after
    obtain ⟨number, integer, hnumber⟩ := signedDigits?_sound h
    refine ⟨_, ⟨before, behind, number, blank, blank', integer, rfl⟩, ?_⟩
    rw [split, plus, split', hnumber]
    simp
  · cases h

theorem plus?_append {g : Grammar} {s : SignedDigits} {offset rest : List Char}
    (h : IsOffset g (some s) offset) (stops : Stops rest) :
    plus? (offset ++ rest) = some (s, rest) := by
  obtain ⟨before, after, number, blank, blank', integer, rfl⟩ := h
  obtain ⟨c, cs, hc, -⟩ := integer.starts
  have front : trimStart (before ++ '+' :: (after ++ number) ++ rest) =
      '+' :: (after ++ number ++ rest) := by
    have start : ∀ c ∈ ('+' :: (after ++ number) ++ rest).head?, isBlank c = false := by
      intro c hc
      obtain rfl : '+' = c := by simpa using hc
      decide
    rw [List.append_assoc, trimStart_append blank start, List.cons_append]
  have behind : trimStart (after ++ number ++ rest) = number ++ rest := by
    rw [List.append_assoc, trimStart_append blank']
    have start := integer.start_not_blank
    rw [hc] at start ⊢
    exact start
  unfold plus?
  rw [front]
  show signedDigits? (trimStart (after ++ number ++ rest)) = _
  rw [behind]
  exact signedDigits?_append integer stops

theorem offsetOf_sound {cs rest : List Char} {o : Option SignedDigits}
    (h : offsetOf cs = (o, rest)) : ∃ offset, IsOffset .read o offset ∧ cs = offset ++ rest := by
  unfold offsetOf at h
  split at h
  · rename_i plus
    obtain ⟨rfl, rfl⟩ := Prod.mk.inj h
    exact plus?_sound plus
  · obtain ⟨rfl, rfl⟩ := Prod.mk.inj h
    exact ⟨[], rfl, rfl⟩

theorem offsetOf_append {g : Grammar} {o : Option SignedDigits} {offset rest : List Char}
    (h : IsOffset g o offset) (stops : Stops rest) : offsetOf (offset ++ rest) = (o, rest) := by
  cases o with
  | none =>
    obtain rfl : offset = [] := h
    rcases stops with rfl | ⟨after, rfl⟩ <;> rfl
  | some s => rw [offsetOf, plus?_append h stops]

/-! ## Bases -/

theorem registerOf?_append (r : Register) (rest : List Char) :
    registerOf? (r.text.toList ++ rest) = some (r, rest) := by
  cases r <;> rfl

theorem registerOf?_sound {cs rest : List Char} {r : Register}
    (h : registerOf? cs = some (r, rest)) : cs = r.text.toList ++ rest := by
  unfold registerOf? at h
  split at h
  · cases h
    rfl
  · cases h
    rfl
  · cases h

theorem registerShape?_sound {cs : List Char} {s : Shape} (h : registerShape? cs = some s) :
    IsBase .read s cs := by
  unfold registerShape? at h
  split at h
  · rename_i r after register
    split at h
    · rename_i o offset
      obtain rfl := Option.some.inj h
      obtain ⟨offset, hoffset, split⟩ := offsetOf_sound offset
      refine ⟨offset, hoffset, ?_⟩
      rw [registerOf?_sound register, split, List.append_nil]
    · cases h
  · cases h

theorem innerShape?_sound {cs : List Char} {s : Shape} (h : innerShape? cs = some s) :
    IsBase .read s cs := by
  unfold innerShape? at h
  split at h
  · split at h
    · rename_i r after register
      split at h
      · rename_i o1 behind first
        split at h
        · rename_i o2 second
          obtain rfl := Option.some.inj h
          obtain ⟨offset1, hoffset1, split1⟩ := offsetOf_sound first
          obtain ⟨offset2, hoffset2, split2⟩ := offsetOf_sound second
          refine ⟨offset1, offset2, hoffset1, hoffset2, ?_⟩
          rw [registerOf?_sound register, split1, split2, List.append_nil, List.append_assoc]
        · cases h
      · cases h
    · cases h
  · cases h

theorem immediateShape?_sound {cs : List Char} {s : Shape} (h : immediateShape? cs = some s) :
    IsBase .read s cs := by
  unfold immediateShape? at h
  split at h
  · rename_i n number
    obtain rfl := Option.some.inj h
    obtain ⟨text, integer, split⟩ := signedDigits?_sound number
    rw [List.append_nil] at split
    rw [split]
    exact integer
  · cases h

/-- Only the reader of registers takes a text that starts with one. -/
theorem ofChars?_register {g : Grammar} {r : Register} {o : Option SignedDigits} {cs : List Char}
    (h : IsBase g (.register r o) cs) : Shape.ofChars? cs = some (.register r o) := by
  obtain ⟨offset, hoffset, rfl⟩ := h
  have read := offsetOf_append hoffset (show Stops [] from .inl rfl)
  rw [List.append_nil] at read
  rw [Shape.ofChars?, registerShape?, registerOf?_append]
  dsimp only
  rw [read]
  rfl

theorem ofChars?_inner {g : Grammar} {r : Register} {o1 o2 : Option SignedDigits} {cs : List Char}
    (h : IsBase g (.inner r o1 o2) cs) : Shape.ofChars? cs = some (.inner r o1 o2) := by
  obtain ⟨first, second, hfirst, hsecond, rfl⟩ := h
  have read1 := offsetOf_append hfirst (show Stops (']' :: second) from .inr ⟨second, rfl⟩)
  have read2 := offsetOf_append hsecond (show Stops [] from .inl rfl)
  rw [List.append_nil] at read2
  have no_register : registerShape? ('[' :: (r.text.toList ++ first ++ ']' :: second)) = none := rfl
  have inner : innerShape? ('[' :: (r.text.toList ++ first ++ ']' :: second)) =
      some (.inner r o1 o2) := by
    simp only [innerShape?, List.append_assoc, registerOf?_append, read1, read2]
  rw [Shape.ofChars?, no_register, inner]
  rfl

/-- What starts as an integer starts as nothing else. -/
theorem shape?_integer {g : Grammar} {s : SignedDigits} {cs : List Char}
    (h : IsInteger g s cs) : registerShape? cs = none ∧ innerShape? cs = none := by
  obtain ⟨c, rest, rfl, start⟩ := h.starts
  have other : c ≠ 'a' ∧ c ≠ 'f' ∧ c ≠ '[' := by
    refine ⟨?_, ?_, ?_⟩
    all_goals
      rintro rfl
      exact absurd start (by simp [StartsInteger]; decide)
  obtain ⟨not_a, not_f, not_bracket⟩ := other
  constructor
  · have none_read : registerOf? (c :: rest) = none := by
      unfold registerOf?
      split
      · simp_all
      · simp_all
      · rfl
    rw [registerShape?, none_read]
  · unfold innerShape?
    split
    · simp_all
    · rfl

theorem ofChars?_immediate {g : Grammar} {n : SignedDigits} {cs : List Char}
    (h : IsBase g (.immediate n) cs) : Shape.ofChars? cs = some (.immediate n) := by
  have read := signedDigits?_append h (show Stops [] from .inl rfl)
  rw [List.append_nil] at read
  obtain ⟨no_register, no_inner⟩ := shape?_integer h
  rw [Shape.ofChars?, no_register, no_inner, Option.none_or, Option.none_or, immediateShape?, read]

theorem ofChars?_of_isBase {g : Grammar} {s : Shape} {cs : List Char} (h : IsBase g s cs) :
    Shape.ofChars? cs = some s := by
  cases s with
  | register r o => exact ofChars?_register h
  | inner r o1 o2 => exact ofChars?_inner h
  | immediate n => exact ofChars?_immediate h

theorem ofChars?_eq_some_iff {cs : List Char} {s : Shape} :
    Shape.ofChars? cs = some s ↔ IsBase .read s cs := by
  constructor
  · intro h
    rcases Option.or_eq_some_iff.mp h with h | ⟨-, h⟩
    · exact registerShape?_sound h
    · rcases Option.or_eq_some_iff.mp h with h | ⟨-, h⟩
      · exact innerShape?_sound h
      · exact immediateShape?_sound h
  · exact ofChars?_of_isBase

end FieldProgram.Address

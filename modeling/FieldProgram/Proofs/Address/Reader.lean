import FieldProgram.Proofs.Address.Nested
import FieldProgram.Proofs.Numeral.Length
import FieldProgram.Proofs.Outcome

/-!
# What reading an address gives

The form decides whether there is an address, and the lengths of its integers whether they have
values.

* `Shape.base_ok`, `Shape.base_error`: integers have values unless they are overlong;
* `read_ok_iff_and_error_iff`: the texts that have an address, and those for which reading fails.
-/

namespace FieldProgram.Address

open Numeral Text

/-- The integer has no more digits than can be read. -/
def SignedDigits.Short (s : SignedDigits) : Prop := s.digits.length ≤ maxDigits

/-- No integer of the form is overlong. -/
def Shape.Short : Shape → Prop
  | .register _ o => ∀ s ∈ o, s.Short
  | .inner _ o1 o2 => (∀ s ∈ o1, s.Short) ∧ ∀ s ∈ o2, s.Short
  | .immediate n => n.Short

/-! ## Integers -/

theorem SignedDigits.value_ok {s : SignedDigits} (short : s.Short) : ∃ n, s.value = .ok n := by
  rw [SignedDigits.value, ofDecimalDigits_eq_ok_iff.mpr ⟨short, rfl⟩]
  exact ⟨_, rfl⟩

theorem SignedDigits.value_error {s : SignedDigits} (long : ¬s.Short) :
    ∃ l, s.value = .error l := by
  have size : ofDecimalDigits s.digits = .error (.reading s.digits.length) := if_neg long
  rw [SignedDigits.value, size]
  exact ⟨_, rfl⟩

theorem offsetValue_ok {o : Option SignedDigits} (short : ∀ s ∈ o, s.Short) :
    ∃ n, offsetValue o = .ok n := by
  cases o with
  | none => exact ⟨0, rfl⟩
  | some s => exact SignedDigits.value_ok (short s rfl)

theorem offsetValue_error {o : Option SignedDigits} (long : ¬∀ s ∈ o, s.Short) :
    ∃ l, offsetValue o = .error l := by
  cases o with
  | none => simp at long
  | some s => exact SignedDigits.value_error (by simpa using long)

theorem Shape.base_ok {s : Shape} (short : s.Short) : ∃ b, s.base = .ok b := by
  cases s with
  | register r o =>
    obtain ⟨n, hn⟩ := offsetValue_ok short
    exact ⟨.register r n, by rw [Shape.base, hn]; rfl⟩
  | inner r o1 o2 =>
    obtain ⟨n1, hn1⟩ := offsetValue_ok short.1
    obtain ⟨n2, hn2⟩ := offsetValue_ok short.2
    exact ⟨.inner r n1 n2, by rw [Shape.base, hn1, hn2]; rfl⟩
  | immediate n =>
    obtain ⟨n', hn'⟩ := SignedDigits.value_ok short
    exact ⟨.immediate n', by rw [Shape.base, hn']; rfl⟩

theorem Shape.base_error {s : Shape} (long : ¬s.Short) : ∃ l, s.base = .error l := by
  cases s with
  | register r o =>
    obtain ⟨l, hl⟩ := offsetValue_error long
    exact ⟨l, by rw [Shape.base, hl]; rfl⟩
  | inner r o1 o2 =>
    by_cases short1 : ∀ s ∈ o1, s.Short
    · obtain ⟨n1, hn1⟩ := offsetValue_ok short1
      obtain ⟨l, hl⟩ := offsetValue_error fun short2 => long ⟨short1, short2⟩
      exact ⟨l, by rw [Shape.base, hn1, hl]; rfl⟩
    · obtain ⟨l, hl⟩ := offsetValue_error short1
      exact ⟨l, by rw [Shape.base, hl]; rfl⟩
  | immediate n =>
    obtain ⟨l, hl⟩ := SignedDigits.value_error long
    exact ⟨l, by rw [Shape.base, hl]; rfl⟩

/-! ## Addresses -/

theorem read_of_form? {x : Text} {cs : List Char} (chars : x = ofChars cs) {s : Shape}
    {dereference : Bool} {type : TypeName} (h : form? cs = some (s, dereference, type)) :
    read x = s.base.map fun base => some ⟨base, dereference, type⟩ := by
  rw [read, chars, chars?_ofChars, Option.bind_some, h]

/-- A form of a text that is found has integers of the same lengths as every other. -/
theorem exists_form? {cs : List Char} {f : Shape × Bool × TypeName} (h : IsAddress .read f cs) :
    ∃ found, form? cs = some found ∧ (found.1.Short ↔ f.1.Short) := by
  rcases form?_of_isAddress (fun _ one_line => one_line) h with found | ⟨r, o, rfl, found⟩
  · exact ⟨f, found, Iff.rfl⟩
  · exact ⟨_, found, by simp [Shape.Short]⟩

/-- Where reading finds an address or fails, the text has a form. -/
theorem form?_of_read {x : Text} (found : read x ≠ .ok none) :
    ∃ cs s dereference type, x = ofChars cs ∧ form? cs = some (s, dereference, type) ∧
      read x = s.base.map fun base => some ⟨base, dereference, type⟩ := by
  cases form : x.chars?.bind form? with
  | none => exact absurd (by rw [read, form]) found
  | some f =>
    obtain ⟨cs, chars, form⟩ := Option.bind_eq_some_iff.mp form
    have same := chars?_eq_some_iff.mp chars
    exact ⟨cs, f.1, f.2.1, f.2.2, same, form, read_of_form? same form⟩

theorem form?_of_read_some {x : Text} {a : Address} (h : read x = .ok (some a)) :
    ∃ cs s, x = ofChars cs ∧ form? cs = some (s, a.dereference, a.valueType) ∧
      s.base = .ok a.base := by
  have found : read x ≠ .ok none := by simp [h]
  obtain ⟨cs, s, dereference, type, chars, form, same⟩ := form?_of_read found
  obtain ⟨b, hb, rfl⟩ : ∃ b, s.base = .ok b ∧ ⟨b, dereference, type⟩ = a := by
    simpa [Except.map_eq_ok] using same.symm.trans h
  exact ⟨cs, s, chars, form, hb⟩

theorem read_eq_ok_some_iff {x : Text} :
    (∃ a, read x = .ok (some a)) ↔
      ∃ cs f, x = ofChars cs ∧ IsAddress .read f cs ∧ f.1.Short := by
  constructor
  · rintro ⟨a, h⟩
    obtain ⟨cs, s, chars, form, hb⟩ := form?_of_read_some h
    refine ⟨cs, _, chars, form?_sound form, ?_⟩
    by_contra long
    obtain ⟨l, hl⟩ := Shape.base_error long
    cases hb.symm.trans hl
  · rintro ⟨cs, f, chars, address, short⟩
    obtain ⟨⟨s, dereference, type⟩, found, same⟩ := exists_form? address
    obtain ⟨b, hb⟩ := Shape.base_ok (same.mpr short)
    exact ⟨⟨b, dereference, type⟩, by rw [read_of_form? chars found, hb]; rfl⟩

theorem read_eq_error_iff {x : Text} :
    (∃ l, read x = .error l) ↔
      ∃ cs f, x = ofChars cs ∧ IsAddress .read f cs ∧ ¬f.1.Short := by
  constructor
  · rintro ⟨l, h⟩
    have found : read x ≠ .ok none := by simp [h]
    obtain ⟨cs, s, dereference, type, chars, form, same⟩ := form?_of_read found
    refine ⟨cs, _, chars, form?_sound form, fun short => ?_⟩
    obtain ⟨b, hb⟩ := Shape.base_ok short
    rw [h, hb] at same
    cases same
  · rintro ⟨cs, f, chars, address, long⟩
    obtain ⟨⟨s, dereference, type⟩, found, same⟩ := exists_form? address
    obtain ⟨l, hl⟩ := Shape.base_error fun short => long (same.mp short)
    exact ⟨l, by rw [read_of_form? chars found, hl]; rfl⟩

/-- A text of characters has an address exactly when it has a form in which either parenthesis
around an integer may be missing and no integer is overlong; reading fails for an overlong integer.
Texts with nested brackets and casts on one line are those with parentheses in pairs. -/
theorem read_ok_iff_and_error_iff (x : Text) :
    ((∃ a, read x = .ok (some a)) ↔
      ∃ cs f, x = ofChars cs ∧ IsAddress .read f cs ∧ f.1.Short) ∧
    ((∃ l, read x = .error l) ↔
      ∃ cs f, x = ofChars cs ∧ IsAddress .read f cs ∧ ¬f.1.Short) ∧
    ∀ cs f, x = ofChars cs →
      (IsAddress .oneLine f cs ↔ IsAddress .read f cs ∧ Nested cs) ∧
      ('\n' ∉ cs → (IsAddress .paired f cs ↔ IsAddress .oneLine f cs)) :=
  ⟨read_eq_ok_some_iff, read_eq_error_iff, fun _ _ _ =>
    ⟨isAddress_oneLine_iff, isAddress_paired_iff⟩⟩

/-- An address is read from a text that has a parenthesis without its partner. -/
theorem read_unclosed : (∃ a, read "fp + (3" = .ok (some a)) ∧
    ∀ f, ¬IsAddress .paired f "fp + (3".toList := by
  refine ⟨⟨⟨.register .fp 3, false, .felt⟩, by decide +kernel⟩, fun f h => ?_⟩
  have := isAddress_oneLine_iff.mp ((isAddress_paired_iff (by decide)).mp h)
  exact absurd this.2 (by decide)

end FieldProgram.Address

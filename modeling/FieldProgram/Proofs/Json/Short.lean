import FieldProgram.Proofs.Document.Short
import FieldProgram.Proofs.Json.Taken
import FieldProgram.Proofs.Numeral.Literal

/-!
# What is read has no overlong integers

Integers of a text are read from decimal digits, so the digit limit of reading bounds those that
come out.

* `Number.short_of_value`: a number that is read is short;
* `short_of_read`: so is a whole document.
-/

namespace FieldProgram.Json

open Numeral

/-! ## Numbers -/

theorem digitRun_lt {cs : List Code} : ∀ d ∈ (digitRun cs).1, d < 10 := by
  intro d hd
  obtain ⟨c, -, hc⟩ := List.mem_filterMap.mp hd
  obtain ⟨ch, -, hch⟩ := Option.bind_eq_some_iff.mp hc
  exact (asciiDigit?_eq_some_iff.mp hch).1

theorem whole?_lt {cs rest : List Code} {ds : List Nat} (h : whole? cs = some (ds, rest)) :
    ∀ d ∈ ds, d < 10 := by
  unfold whole? at h
  split at h
  · obtain ⟨rfl, -⟩ := Prod.mk.inj (Option.some.inj h)
    simp
  · split at h
    · rw [show ds = (digitRun _).1 from congrArg Prod.fst (Option.some.inj h).symm]
      exact digitRun_lt
    · cases h
  · cases h

theorem unsignedNumber?_whole_lt {negative : Bool} {cs rest : List Code} {n : Number}
    (h : unsignedNumber? negative cs = some (n, rest)) : ∀ d ∈ n.whole, d < 10 := by
  obtain ⟨⟨w, cs'⟩, hw, h⟩ := Option.bind_eq_some_iff.mp h
  obtain ⟨rfl, -⟩ := Prod.mk.inj (Option.some.inj h)
  exact whole?_lt hw

theorem number?_whole_lt {cs rest : List Code} {n : Number} (h : number? cs = some (n, rest)) :
    ∀ d ∈ n.whole, d < 10 := by
  unfold number? at h
  split at h <;> exact unsignedNumber?_whole_lt h

theorem Number.short_of_value {n : Number} (digits : ∀ d ∈ n.whole, d < 10) {v : Document}
    (h : n.value = .ok v) : v.Short := by
  unfold Number.value at h
  split at h
  · obtain ⟨m, hm, rest⟩ := Except.bind_eq_ok.mp h
    obtain rfl := Except.ok.inj rest
    have short := decimalDigits_le_of_ofDecimalDigits digits hm
    rw [Document.short_int, Document.ShortInteger]
    split
    · rwa [Int.natAbs_neg, Int.natAbs_natCast]
    · rwa [Int.natAbs_natCast]
  · obtain rfl := Except.ok.inj h
    exact Document.short_float _

/-! ## Values -/

theorem short_of_plainValue {levels : Nat} {cs rest : List Code} {v : Document}
    (h : plainValue levels cs = .ok (v, rest)) : v.Short := by
  rcases plainValue_cases h with ⟨w, word, -, rfl⟩ | ⟨n, number, value⟩
  · have named : ∀ w ∈ words, w.2.Short := by simp [words]
    exact named w word
  · exact Number.short_of_value (number?_whole_lt number) value

theorem short_ofPairs {ms : List (Text × Document)} (short : ∀ m ∈ ms, m.2.Short) :
    ∀ m ∈ Entries.ofPairs ms, m.2.Short := by
  have put_short : ∀ (key : Text) (v : Document) (es : List (Text × Document)), v.Short →
      (∀ m ∈ es, m.2.Short) → ∀ m ∈ Entries.put key v es, m.2.Short := by
    intro key v es hv hes
    induction es with
    | nil => simpa [Entries.put] using hv
    | cons e es ih =>
      obtain ⟨k, u⟩ := e
      obtain ⟨hu, hes⟩ := List.forall_mem_cons.mp hes
      rw [Entries.put]
      split
      · exact List.forall_mem_cons.mpr ⟨hv, hes⟩
      · exact List.forall_mem_cons.mpr ⟨hu, ih hes⟩
  suffices ∀ es : List (Text × Document), (∀ m ∈ es, m.2.Short) →
      ∀ m ∈ ms.foldl (fun es p => Entries.put p.1 p.2 es) es, m.2.Short from this [] (by simp)
  induction ms with
  | nil => exact fun es hes => hes
  | cons m ms ih =>
    obtain ⟨hm, hms⟩ := List.forall_mem_cons.mp short
    exact fun es hes => ih hms _ (put_short m.1 m.2 es hm hes)

theorem KeyPolicy.short_of_close {policy : KeyPolicy} {levels : Nat}
    {ms : List (Text × Document)} {v : Document} (short : ∀ m ∈ ms, m.2.Short)
    (h : policy.close levels ms = .ok v) : v.Short := by
  cases policy with
  | keepLast =>
    obtain rfl := Except.ok.inj h
    exact Document.short_map.mpr (short_ofPairs short)
  | rejectRepeated =>
    simp only [close] at h
    split at h
    · cases h
    · split at h
      · cases h
      · obtain rfl := Except.ok.inj h
        exact Document.short_map.mpr short

mutual

theorem short_of_value (policy : KeyPolicy) : (fuel levels : Nat) → (cs : List Code) →
    ∀ v rest, value policy fuel levels cs = .ok (v, rest) → v.Short
  | 0, _, _ => by
    intro v rest h
    cases h
  | fuel + 1, levels, cs => by
    intro v rest h
    unfold value at h
    split at h
    · obtain ⟨⟨s, after⟩, -, h⟩ := Except.bind_eq_ok.mp h
      obtain ⟨rfl, -⟩ := Prod.mk.inj (Except.ok.inj h)
      exact Document.short_str s
    · split at h
      · cases h
      · split at h
        · obtain ⟨rfl, -⟩ := Prod.mk.inj (Except.ok.inj h)
          simp
        · exact short_of_items policy fuel _ [] _ (by simp) _ _ h
    · split at h
      · cases h
      · split at h
        · obtain ⟨v', hv, h⟩ := Except.bind_eq_ok.mp h
          obtain ⟨rfl, -⟩ := Prod.mk.inj (Except.ok.inj h)
          exact KeyPolicy.short_of_close (by simp) hv
        · exact short_of_members policy fuel _ [] _ (by simp) _ _ h
    · exact short_of_plainValue h

theorem short_of_items (policy : KeyPolicy) : (fuel levels : Nat) → (read : List Document) →
    (cs : List Code) → (∀ x ∈ read, x.Short) →
      ∀ v rest, items policy fuel levels read cs = .ok (v, rest) → v.Short
  | 0, _, _, _, _ => by
    intro v rest h
    cases h
  | fuel + 1, levels, read, cs, short => by
    intro v rest h
    rw [items] at h
    obtain ⟨⟨x, after⟩, hx, h⟩ := Except.bind_eq_ok.mp h
    have short' : ∀ y ∈ x :: read, y.Short :=
      List.forall_mem_cons.mpr ⟨short_of_value policy fuel levels cs _ _ hx, short⟩
    dsimp only at h
    split at h
    · obtain ⟨rfl, -⟩ := Prod.mk.inj (Except.ok.inj h)
      exact Document.short_list.mpr fun y hy => short' y (List.mem_reverse.mp hy)
    · exact short_of_items policy fuel levels _ _ short' _ _ h
    · cases h

theorem short_of_members (policy : KeyPolicy) : (fuel levels : Nat) →
    (read : List (Text × Document)) → (cs : List Code) → (∀ m ∈ read, m.2.Short) →
      ∀ v rest, members policy fuel levels read cs = .ok (v, rest) → v.Short
  | 0, _, _, _, _ => by
    intro v rest h
    cases h
  | fuel + 1, levels, read, cs, short => by
    intro v rest h
    rw [members] at h
    obtain ⟨⟨key, afterKey⟩, -, h⟩ := Except.bind_eq_ok.mp h
    obtain ⟨⟨x, after⟩, hx, h⟩ := Except.bind_eq_ok.mp h
    have short' : ∀ m ∈ (key, x) :: read, m.2.Short :=
      List.forall_mem_cons.mpr ⟨short_of_value policy fuel levels afterKey _ _ hx, short⟩
    dsimp only at h
    split at h
    · obtain ⟨v', hv, h⟩ := Except.bind_eq_ok.mp h
      obtain ⟨rfl, -⟩ := Prod.mk.inj (Except.ok.inj h)
      exact KeyPolicy.short_of_close (fun m hm => short' m (List.mem_reverse.mp hm)) hv
    · exact short_of_members policy fuel levels _ _ short' _ _ h
    · cases h

end

/-! ## Texts -/

theorem short_of_read {policy : KeyPolicy} {levels : Nat} {text : List Code} {d : Document}
    (h : read policy levels text = .ok d) : d.Short := by
  unfold read at h
  obtain ⟨⟨v, rest⟩, hv, h⟩ := Except.bind_eq_ok.mp h
  have short := short_of_value policy _ _ _ _ _ hv
  dsimp only at h
  split at h
  · obtain rfl := Except.ok.inj h
    exact short
  · cases h

theorem short_of_readMarked {policy : KeyPolicy} {levels : Nat} {text : List Code} {d : Document}
    (h : readMarked policy levels text = .ok d) : d.Short := by
  unfold readMarked at h
  split at h
  · cases h
  · exact short_of_read h

end FieldProgram.Json

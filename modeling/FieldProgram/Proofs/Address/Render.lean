import FieldProgram.Proofs.Address.Reader
import FieldProgram.Proofs.Document.Short
import FieldProgram.Proofs.Numeral.Literal

/-!
# Canonical texts of addresses

* `read_wellFormed`: only well-formed addresses are read;
* `isAddress_render`, `read_render_of_wellFormed`: the canonical text of a well-formed address reads
  as the address;
* `read_canonical`: so what was read can be written and read again.
-/

namespace FieldProgram.Address

open Numeral Text Document

/-- The parts of the address fit together. -/
structure WellFormed (a : Address) : Prop where
  parts :
    (a.register?.isSome ∧ a.offset2 = 0 ∧ a.immediate? = none ∧ a.innerDereference = false) ∨
    (a.register?.isSome ∧ a.immediate? = none ∧ a.innerDereference = true) ∨
    (a.register? = none ∧ a.offset1 = 0 ∧ a.offset2 = 0 ∧ a.immediate?.isSome ∧
      a.innerDereference = false)
  dotted : a.valueType.IsDotted

/-- No integer of the address is overlong. -/
structure ShortIntegers (a : Address) : Prop where
  offset1 : ShortInteger a.offset1
  offset2 : ShortInteger a.offset2
  immediate : ∀ n ∈ a.immediate?, ShortInteger n

/-! ## What is read -/

theorem IsExpression.dotted {g : Grammar} {s : Shape} {type : TypeName} {cs : List Char}
    (h : IsExpression g s type cs) : type.IsDotted := by
  cases h with
  | bare => exact ⟨by decide, List.all_eq_true.mp (by decide +kernel)⟩
  | cast _ _ _ dotted => exact dotted

theorem Padded.of {P : List Char → Prop} {Q : Prop} {cs : List Char} (h : Padded P cs)
    (imp : ∀ {mid}, P mid → Q) : Q := by
  obtain ⟨front, mid, back, -, -, inside, -⟩ := h
  exact imp inside

theorem IsAddress.dotted {g : Grammar} {f : Shape × Bool × TypeName} {cs : List Char}
    (h : IsAddress g f cs) : f.2.2.IsDotted := by
  cases h with
  | direct expression => exact expression.of IsExpression.dotted
  | dereferenced _ _ expression => exact expression.of IsExpression.dotted

/-- The kinds of bases leave nothing to fit together. -/
theorem wellFormed_of_dotted {a : Address} (dotted : a.valueType.IsDotted) : a.WellFormed := by
  refine ⟨?_, dotted⟩
  obtain ⟨base, dereference, type⟩ := a
  cases base with
  | register r o => exact .inl ⟨rfl, rfl, rfl, rfl⟩
  | inner r o1 o2 => exact .inr (.inl ⟨rfl, rfl, rfl⟩)
  | immediate n => exact .inr (.inr ⟨rfl, rfl, rfl, rfl, rfl⟩)

theorem exists_isAddress_of_read {x : Text} {a : Address} (h : read x = .ok (some a)) :
    ∃ cs s, IsAddress .read (s, a.dereference, a.valueType) cs ∧ s.base = .ok a.base := by
  obtain ⟨cs, s, -, form, hb⟩ := form?_of_read_some h
  exact ⟨cs, s, form?_sound form, hb⟩

theorem read_wellFormed {x : Text} {a : Address} (h : read x = .ok (some a)) : a.WellFormed := by
  obtain ⟨cs, s, address, -⟩ := exists_isAddress_of_read h
  exact wellFormed_of_dotted address.dotted

/-! ## Integers that were read are short -/

theorem IsDigits.lt {digits : List Nat} {cs : List Char} (h : IsDigits digits cs) :
    ∀ d ∈ digits, d < 10 := by
  intro d hd
  rw [← h.filterMap] at hd
  obtain ⟨c, -, hc⟩ := List.mem_filterMap.mp hd
  exact decimalDigit?_lt hc

theorem IsInteger.value_short {g : Grammar} {s : SignedDigits} {cs : List Char} {n : Int}
    (h : IsInteger g s cs) (value : s.value = .ok n) : ShortInteger n := by
  obtain ⟨opening, closing, ds, -, digits, -⟩ := h
  obtain ⟨m, hm, rfl⟩ := Except.map_eq_ok.mp value
  obtain ⟨k, hk, hm⟩ := Except.bind_eq_ok.mp hm
  obtain rfl := Except.ok.inj hm
  have short := decimalDigits_le_of_ofDecimalDigits digits.lt hk
  unfold ShortInteger
  cases s.negative <;> simpa using short

theorem shortInteger_zero : ShortInteger 0 := by decide

theorem IsOffset.value_short {g : Grammar} {o : Option SignedDigits} {cs : List Char} {n : Int}
    (h : IsOffset g o cs) (value : offsetValue o = .ok n) : ShortInteger n := by
  cases o with
  | none =>
    obtain rfl := Except.ok.inj value
    exact shortInteger_zero
  | some s =>
    obtain ⟨before, after, number, -, -, integer, -⟩ := h
    exact integer.value_short value

/-- What an address must have for its base. -/
theorem shortIntegers_of_base {g : Grammar} {s : Shape} {cs : List Char} {a : Address}
    (h : IsBase g s cs) (base : s.base = .ok a.base) : a.ShortIntegers := by
  obtain ⟨b, dereference, type⟩ := a
  cases s with
  | register r o =>
    obtain ⟨offset, hoffset, -⟩ := h
    obtain ⟨n, hn, rfl⟩ := Except.map_eq_ok.mp base
    exact ⟨hoffset.value_short hn, shortInteger_zero, by simp [immediate?]⟩
  | inner r o1 o2 =>
    obtain ⟨first, second, hfirst, hsecond, -⟩ := h
    obtain ⟨n1, hn1, base⟩ := Except.bind_eq_ok.mp base
    obtain ⟨n2, hn2, base⟩ := Except.bind_eq_ok.mp base
    obtain rfl := Except.ok.inj base
    exact ⟨hfirst.value_short hn1, hsecond.value_short hn2, by simp [immediate?]⟩
  | immediate m =>
    obtain ⟨n, hn, rfl⟩ := Except.map_eq_ok.mp base
    refine ⟨shortInteger_zero, shortInteger_zero, ?_⟩
    intro n' same
    obtain rfl := Option.some.inj same
    exact IsInteger.value_short h hn

theorem read_shortIntegers {x : Text} {a : Address} (h : read x = .ok (some a)) :
    a.ShortIntegers := by
  obtain ⟨cs, s, address, base⟩ := exists_isAddress_of_read h
  obtain ⟨-, part, -, -, hbase, -⟩ := address.surrounds
  exact shortIntegers_of_base hbase base

/-! ## Canonical texts -/

/-- The signed digits that are written for an integer. -/
def signedDigits (n : Int) : SignedDigits := ⟨decide (n < 0), digits 10 n.natAbs⟩

/-- The form of the canonical text of a base. -/
def Base.shape : Base → Shape
  | .register r o => .register r (some (signedDigits o))
  | .inner r o1 o2 => .inner r (some (signedDigits o1)) (some (signedDigits o2))
  | .immediate n => .immediate (signedDigits n)

theorem decimalDigit?_digitChar {d : Nat} (h : d < 10) :
    decimalDigit? (Nat.digitChar d) = some d := by
  have known : ∀ d : Fin 10, decimalDigit? (Nat.digitChar d) = some d.val := by decide +kernel
  exact known ⟨d, h⟩

theorem isDigits_decimalDigits (n : Nat) : IsDigits (digits 10 n) (decimalDigits n) := by
  refine ⟨?_, mapM_digitChar (fun _ h => decimalDigit?_digitChar h) (digits_lt (by decide) n)⟩
  simp [decimalDigits, digits_ne_nil]

theorem isInteger_parenthesized (n : Int) :
    IsInteger .read (signedDigits n) (parenthesized n) := by
  refine ⟨true, true, decimalDigits n.natAbs, trivial, isDigits_decimalDigits n.natAbs, ?_⟩
  by_cases negative : n < 0
  · simp [parenthesized, shortDecimal, signedDigits, only, negative]
  · simp [parenthesized, shortDecimal, signedDigits, only, negative]

theorem allBlank_space : AllBlank [' '] := by
  intro c hc
  rw [List.mem_singleton.mp hc]
  decide

theorem isOffset_parenthesized (n : Int) :
    IsOffset .read (some (signedDigits n)) (" + ".toList ++ parenthesized n) :=
  ⟨[' '], [' '], _, allBlank_space, allBlank_space, isInteger_parenthesized n, rfl⟩

theorem isBase_chars (b : Base) : IsBase .read b.shape b.chars := by
  cases b with
  | register r o =>
    exact ⟨_, isOffset_parenthesized o, by simp [Base.chars]⟩
  | inner r o1 o2 =>
    exact ⟨_, _, isOffset_parenthesized o1, isOffset_parenthesized o2, by simp [Base.chars]⟩
  | immediate n => exact isInteger_parenthesized n

theorem signedDigits_value {n : Int} (short : ShortInteger n) :
    (signedDigits n).value = .ok n := by
  refine Except.map_eq_ok.mpr ⟨(n.natAbs : Int),
    Except.bind_eq_ok.mpr ⟨n.natAbs, ofDecimalDigits_digits short, rfl⟩, ?_⟩
  by_cases negative : n < 0
  · simp only [signedDigits, negative, decide_true, if_true]
    omega
  · simp only [signedDigits, negative, decide_false, Bool.false_eq_true, if_false]
    omega

theorem shape_base {a : Address} (short : a.ShortIntegers) : a.base.shape.base = .ok a.base := by
  obtain ⟨b, dereference, type⟩ := a
  obtain ⟨short1, short2, short3⟩ := short
  cases b with
  | register r o =>
    have value : offsetValue (some (signedDigits o)) = .ok o := signedDigits_value short1
    rw [Base.shape, Shape.base, value]
    rfl
  | inner r o1 o2 =>
    have value1 : offsetValue (some (signedDigits o1)) = .ok o1 := signedDigits_value short1
    have value2 : offsetValue (some (signedDigits o2)) = .ok o2 := signedDigits_value short2
    rw [Base.shape, Shape.base, value1, value2]
    rfl
  | immediate n =>
    rw [Base.shape, Shape.base, signedDigits_value (short3 n rfl)]
    rfl

theorem not_line_feed_parenthesized (n : Int) : '\n' ∉ parenthesized n := by
  obtain ⟨opening, closing, ds, -, digits, same⟩ := isInteger_parenthesized n
  have no_digit : '\n' ∉ ds := by
    intro mem
    exact absurd (isDecimalDigit_of_isDigits digits _ mem) (by decide)
  rw [same]
  simp only [List.mem_append, not_or]
  refine ⟨⟨⟨?_, ?_⟩, no_digit⟩, ?_⟩
  all_goals
    intro mem
    exact absurd (eq_of_mem_only mem) (by decide)

theorem not_line_feed_chars (b : Base) : '\n' ∉ b.chars := by
  cases b with
  | register r o =>
    have := not_line_feed_parenthesized o
    cases r <;> simp [Base.chars, Register.text, this]
  | inner r o1 o2 =>
    have := not_line_feed_parenthesized o1
    have := not_line_feed_parenthesized o2
    cases r <;> simp [Base.chars, Register.text, *]
  | immediate n => exact not_line_feed_parenthesized n

theorem castChars_eq (b : Base) (type : TypeName) :
    castChars b type = castText b.chars [' '] type := by
  have name : "cast(".toList = ['c', 'a', 's', 't', '('] := by simp
  have comma : ", ".toList = [',', ' '] := by simp
  unfold castChars castText
  rw [name, comma]
  simp only [List.append_assoc, List.cons_append, List.nil_append]

theorem isExpression_castChars (b : Base) {type : TypeName} (dotted : type.IsDotted) :
    IsExpression .read b.shape type (castChars b type) := by
  have padded : Padded (IsBase .read b.shape) b.chars :=
    ⟨[], b.chars, [], by simp, by simp, isBase_chars b, by simp⟩
  rw [castChars_eq]
  exact .cast padded (not_line_feed_chars b) allBlank_space dotted

theorem isAddress_render {a : Address} (dotted : a.valueType.IsDotted) :
    IsAddress .read (a.base.shape, a.dereference, a.valueType) a.render.toList := by
  obtain ⟨base, dereference, type⟩ := a
  have blank : AllBlank [] := by simp
  cases dereference with
  | false =>
    have expression := isExpression_castChars base dotted
    have := IsAddress.direct ⟨[], _, [], blank, blank, expression, rfl⟩
    simpa [render] using this
  | true =>
    have dotted' : type.pointer.IsDotted := dotted
    have expression := isExpression_castChars base dotted'
    have := IsAddress.dereferenced blank blank ⟨[], _, [], blank, blank, expression, rfl⟩
    simpa [render, TypeName.pointee_pointer] using this

theorem read_render_of_wellFormed {a : Address} (wellFormed : a.WellFormed)
    (short : a.ShortIntegers) : read a.render = .ok (some a) := by
  have address := isAddress_render wellFormed.dotted
  have found : form? a.render.toList = some (a.base.shape, a.dereference, a.valueType) := by
    rcases form?_of_isAddress (fun _ one_line => one_line) address with found | ⟨r, o, same, -⟩
    · exact found
    · -- a canonical text has all its offsets
      obtain ⟨base, dereference, type⟩ := a
      cases base <;> simp [Base.shape] at same
  have chars : (a.render : Text) = ofChars a.render.toList := rfl
  rw [read_of_form? chars found, shape_base short]
  rfl

/-- Every address that is read is well formed and has short integers. A well-formed address with
short integers is read from its canonical text. -/
theorem read_canonical :
    (∀ x a, read x = .ok (some a) → a.WellFormed) ∧
    (∀ a : Address, a.WellFormed → a.ShortIntegers → read a.render = .ok (some a)) ∧
    ∀ x a, read x = .ok (some a) → read a.render = .ok (some a) := by
  refine ⟨fun _ _ h => read_wellFormed h, fun _ => read_render_of_wellFormed, ?_⟩
  intro x a h
  exact read_render_of_wellFormed (read_wellFormed h) (read_shortIntegers h)

/-- A pointer in memory, found through another one. -/
def throughMemory : Address := ⟨.inner .fp (-3) 2, true, ⟨"felt", 1⟩⟩

theorem read_canonical_throughMemory :
    throughMemory.WellFormed ∧ throughMemory.ShortIntegers ∧
      read throughMemory.render = .ok (some throughMemory) := by
  have dotted : throughMemory.valueType.IsDotted :=
    ⟨by decide, List.all_eq_true.mp (by decide +kernel)⟩
  have wellFormed : throughMemory.WellFormed := wellFormed_of_dotted dotted
  have short : throughMemory.ShortIntegers :=
    ⟨by decide, by decide, by simp [throughMemory, immediate?]⟩
  exact ⟨wellFormed, short, read_canonical.2.1 throughMemory wellFormed short⟩

example : throughMemory.render = "[cast([fp + (-3)] + (2), felt**)]" := by decide

end FieldProgram.Address

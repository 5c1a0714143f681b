import FieldProgram.Proofs.Address.Forms

/-!
# Nested brackets

In a text with nested brackets, the bracket that closes is always the one that was opened last, and
all are closed at the end. The reader takes integers with one parenthesis only. It is the nesting of
the brackets that tells such texts from those with parentheses in pairs.

* `excess_of_nestedFrom`, `excess_of_square`: as many parentheses are opened as closed;
* `isAddress_paired_iff`: addresses with nested brackets have their parentheses in pairs.
-/

namespace FieldProgram.Address

open Numeral Text

/-- Whether the brackets of the text are nested and close those that are open, the closing brackets
for which are given from the innermost on. -/
def nestedFrom : (awaited : List Char) → List Char → Bool
  | awaited, [] => awaited.isEmpty
  | awaited, c :: cs =>
    if c = '(' then nestedFrom (')' :: awaited) cs
    else if c = '[' then nestedFrom (']' :: awaited) cs
    else if c = ')' ∨ c = ']' then
      match awaited with
      | [] => false
      | d :: awaited => d == c && nestedFrom awaited cs
    else nestedFrom awaited cs

/-- Every bracket has its partner, and they do not cross. -/
def Nested (cs : List Char) : Prop := nestedFrom [] cs = true

instance (cs : List Char) : Decidable (Nested cs) := inferInstanceAs (Decidable (_ = _))

/-! ## One bracket -/

theorem plain_or_bracket (c : Char) :
    c ∉ brackets ∨ c = '(' ∨ c = ')' ∨ c = '[' ∨ c = ']' := by
  by_cases plain : c ∉ brackets
  · exact .inl plain
  · exact .inr (by simpa [brackets] using not_not.mp plain)

@[simp] theorem nestedFrom_round (awaited cs : List Char) :
    nestedFrom awaited ('(' :: cs) = nestedFrom (')' :: awaited) cs := by
  simp [nestedFrom]

@[simp] theorem nestedFrom_square (awaited cs : List Char) :
    nestedFrom awaited ('[' :: cs) = nestedFrom (']' :: awaited) cs := by
  simp [nestedFrom]

theorem nestedFrom_plain {c : Char} (plain : c ∉ brackets) (awaited cs : List Char) :
    nestedFrom awaited (c :: cs) = nestedFrom awaited cs := by
  simp [brackets] at plain
  simp [nestedFrom, plain]

theorem nestedFrom_close_iff {c : Char} (close : c = ')' ∨ c = ']') {awaited cs : List Char} :
    nestedFrom awaited (c :: cs) = true ↔
      ∃ others, awaited = c :: others ∧ nestedFrom others cs = true := by
  have not_open : c ≠ '(' ∧ c ≠ '[' := by rcases close with rfl | rfl <;> decide
  cases awaited with
  | nil => simp [nestedFrom, not_open, close]
  | cons d awaited => simp [nestedFrom, not_open, close, and_assoc]

theorem nestedFrom_close {c : Char} (close : c = ')' ∨ c = ']') (awaited cs : List Char) :
    nestedFrom (c :: awaited) (c :: cs) = nestedFrom awaited cs := by
  rw [Bool.eq_iff_iff, nestedFrom_close_iff close]
  simp

/-- What stands at the end of a text with nested brackets is nested within brackets. -/
theorem exists_nestedFrom {awaited front cs : List Char}
    (h : nestedFrom awaited (front ++ cs) = true) : ∃ awaited, nestedFrom awaited cs = true := by
  induction front generalizing awaited with
  | nil => exact ⟨awaited, h⟩
  | cons c front ih =>
    rw [List.cons_append] at h
    rcases plain_or_bracket c with plain | rfl | rfl | rfl | rfl
    · rw [nestedFrom_plain plain] at h
      exact ih h
    · rw [nestedFrom_round] at h
      exact ih h
    · obtain ⟨others, -, h⟩ := (nestedFrom_close_iff (.inl rfl)).mp h
      exact ih h
    · rw [nestedFrom_square] at h
      exact ih h
    · obtain ⟨others, -, h⟩ := (nestedFrom_close_iff (.inr rfl)).mp h
      exact ih h

/-! ## Pairs are nested -/

/-- The text does not change what is awaited. -/
def Neutral (cs : List Char) : Prop :=
  ∀ awaited rest, nestedFrom awaited (cs ++ rest) = nestedFrom awaited rest

theorem neutral_nil : Neutral [] := fun _ _ => rfl

theorem neutral_plain {c : Char} (plain : c ∉ brackets) : Neutral [c] :=
  fun awaited rest => nestedFrom_plain plain awaited rest

theorem Neutral.append {as bs : List Char} (h : Neutral as) (h' : Neutral bs) :
    Neutral (as ++ bs) := by
  intro awaited rest
  rw [List.append_assoc, h, h']

theorem Neutral.round {cs : List Char} (h : Neutral cs) : Neutral ('(' :: (cs ++ [')'])) := by
  intro awaited rest
  have inside := h (')' :: awaited) (')' :: rest)
  rw [nestedFrom_close (.inl rfl)] at inside
  simpa using inside

theorem Neutral.square {cs : List Char} (h : Neutral cs) : Neutral ('[' :: (cs ++ [']'])) := by
  intro awaited rest
  have inside := h (']' :: awaited) (']' :: rest)
  rw [nestedFrom_close (.inr rfl)] at inside
  simpa using inside

theorem neutral_run {cs : List Char} (h : ∀ c ∈ cs, c ∉ brackets) : Neutral cs := by
  induction cs with
  | nil => exact neutral_nil
  | cons c cs ih =>
    obtain ⟨first, others⟩ := List.forall_mem_cons.mp h
    exact (neutral_plain first).append (ih others)

theorem IsInteger.neutral {g : Grammar} (pairs : ∀ opening closing, g.parens opening closing →
    opening = closing) {s : SignedDigits} {cs : List Char} (h : IsInteger g s cs) :
    Neutral cs := by
  obtain ⟨opening, closing, ds, parens, digits, rfl⟩ := h
  have inside : Neutral (only '-' s.negative ++ ds) := by
    refine neutral_run fun c hc => ?_
    rcases List.mem_append.mp hc with hc | hc
    · rw [eq_of_mem_only hc]
      decide
    · exact not_mem_brackets (by decide) (isDecimalDigit_of_isDigits digits c hc)
  obtain rfl := pairs opening closing parens
  cases opening with
  | true => simpa [only] using inside.round
  | false => simpa [only] using inside

theorem enclosed_neutral {g : Grammar} (pairs : ∀ opening closing, g.parens opening closing →
    opening = closing) : Enclosed g Neutral where
  nil := neutral_nil
  append := Neutral.append
  plain := neutral_plain
  round := Neutral.round
  square := Neutral.square
  integer := IsInteger.neutral pairs

theorem IsAddress.nested {g : Grammar} (pairs : ∀ opening closing, g.parens opening closing →
    opening = closing) {f : Shape × Bool × TypeName} {cs : List Char} (h : IsAddress g f cs) :
    Nested cs := by
  have := (enclosed_neutral pairs).address h [] []
  rwa [List.append_nil] at this

/-! ## Nested parentheses come in pairs -/

/-- How many more parentheses are opened than closed. -/
def excess (cs : List Char) : Int := (cs.count '(' : Int) - cs.count ')'

@[simp] theorem excess_nil : excess [] = 0 := rfl

@[simp] theorem excess_append (as bs : List Char) : excess (as ++ bs) = excess as + excess bs := by
  simp only [excess, List.count_append]
  omega

theorem excess_cons (c : Char) (cs : List Char) : excess (c :: cs) = excess [c] + excess cs :=
  excess_append [c] cs

theorem excess_run {cs : List Char} (h : ∀ c ∈ cs, c ∉ brackets) : excess cs = 0 := by
  have no_open : '(' ∉ cs := fun mem => h _ mem (by decide)
  have no_close : ')' ∉ cs := fun mem => h _ mem (by decide)
  rw [excess, List.count_eq_zero_of_not_mem no_open, List.count_eq_zero_of_not_mem no_close]
  rfl

theorem excess_plain {c : Char} (plain : c ∉ brackets) : excess [c] = 0 :=
  excess_run (by simpa using plain)

theorem excess_blank {cs : List Char} (h : AllBlank cs) : excess cs = 0 :=
  excess_run fun c hc => not_mem_brackets (by decide) (h c hc)

/-- What is still awaited has been opened before. -/
theorem excess_of_nestedFrom {awaited cs : List Char} (h : nestedFrom awaited cs = true) :
    excess cs + awaited.count ')' = 0 := by
  induction cs generalizing awaited with
  | nil =>
    rw [nestedFrom, List.isEmpty_iff] at h
    simp [h]
  | cons c cs ih =>
    rw [excess_cons]
    rcases plain_or_bracket c with plain | rfl | rfl | rfl | rfl
    · rw [nestedFrom_plain plain] at h
      rw [excess_plain plain, Int.zero_add]
      exact ih h
    · rw [nestedFrom_round] at h
      have := ih h
      have one : excess ['('] = 1 := by decide
      rw [List.count_cons_self] at this
      omega
    · obtain ⟨others, rfl, h⟩ := (nestedFrom_close_iff (.inl rfl)).mp h
      have := ih h
      have one : excess [')'] = -1 := by decide
      rw [List.count_cons_self]
      omega
    · rw [nestedFrom_square] at h
      have := ih h
      have none : excess ['['] = 0 := by decide
      rw [List.count_cons_of_ne (by decide)] at this
      omega
    · obtain ⟨others, rfl, h⟩ := (nestedFrom_close_iff (.inr rfl)).mp h
      have := ih h
      have none : excess [']'] = 0 := by decide
      rw [List.count_cons_of_ne (by decide)]
      omega

/-- Up to the square bracket that closes, the parentheses opened since the one that opened are
closed. -/
theorem excess_of_square {mid rest awaited : List Char} {opened : Nat}
    (no_square : ∀ c ∈ mid, c ≠ '[' ∧ c ≠ ']')
    (h : nestedFrom (List.replicate opened ')' ++ ']' :: awaited) (mid ++ ']' :: rest) = true) :
    excess mid + opened = 0 := by
  induction mid generalizing opened with
  | nil =>
    obtain ⟨others, same, -⟩ := (nestedFrom_close_iff (.inr rfl)).mp h
    cases opened with
    | zero => rfl
    | succ opened => simp [List.replicate_succ] at same
  | cons c mid ih =>
    obtain ⟨⟨not_open, not_close⟩, others⟩ := List.forall_mem_cons.mp no_square
    rw [List.cons_append] at h
    rw [excess_cons]
    rcases plain_or_bracket c with plain | rfl | rfl | rfl | rfl
    · rw [nestedFrom_plain plain] at h
      rw [excess_plain plain, Int.zero_add]
      exact ih others h
    · rw [nestedFrom_round, ← List.cons_append, ← List.replicate_succ] at h
      have := ih others h
      have one : excess ['('] = 1 := by decide
      omega
    · obtain ⟨still, same, h⟩ := (nestedFrom_close_iff (.inl rfl)).mp h
      cases opened with
      | zero => simp at same
      | succ opened =>
        rw [List.replicate_succ, List.cons_append] at same
        obtain ⟨-, rfl⟩ := List.cons.inj same
        have := ih others h
        have one : excess [')'] = -1 := by decide
        omega
    · exact absurd rfl not_open
    · exact absurd rfl not_close

/-! ## Addresses -/

variable {g k : Grammar}

theorem IsInteger.pair (allowed : k.parens = fun opening closing => opening = closing)
    {s : SignedDigits} {cs : List Char} (h : IsInteger g s cs) (even : excess cs = 0) :
    IsInteger k s cs := by
  obtain ⟨opening, closing, ds, -, digits, rfl⟩ := h
  refine ⟨opening, closing, ds, ?_, digits, rfl⟩
  have sign : excess (only '-' s.negative) = 0 := by cases s.negative <;> rfl
  have none : excess ds = 0 :=
    excess_run fun c hc => not_mem_brackets (by decide) (isDecimalDigit_of_isDigits digits c hc)
  simp only [excess_append, sign, none] at even
  rw [allowed]
  revert even
  cases opening <;> cases closing <;> decide

theorem IsOffset.pair (allowed : k.parens = fun opening closing => opening = closing)
    {o : Option SignedDigits} {cs : List Char} (h : IsOffset g o cs) (even : excess cs = 0) :
    IsOffset k o cs := by
  cases o with
  | none => exact h
  | some s =>
    obtain ⟨before, after, number, blank, blank', integer, rfl⟩ := h
    have plus : excess ['+'] = 0 := by decide
    rw [excess_append, excess_cons, excess_append, excess_blank blank, excess_blank blank',
      plus] at even
    exact ⟨before, after, number, blank, blank', integer.pair allowed (by omega), rfl⟩

theorem IsOffset.not_square {o : Option SignedDigits} {cs : List Char} (h : IsOffset g o cs) :
    ∀ c ∈ cs, c ≠ '[' ∧ c ≠ ']' := by
  have blank_not_square : ∀ c, isBlank c = true → c ≠ '[' ∧ c ≠ ']' :=
    fun c hc => not_square_of_plain (not_mem_brackets (by decide) hc)
  cases o with
  | none =>
    obtain rfl : cs = [] := h
    simp
  | some s =>
    obtain ⟨before, after, number, blank, blank', integer, rfl⟩ := h
    intro c hc
    simp only [List.mem_append, List.mem_cons] at hc
    rcases hc with hc | rfl | hc | hc
    · exact blank_not_square c (blank c hc)
    · decide
    · exact blank_not_square c (blank' c hc)
    · exact integer.not_square c hc

theorem excess_register (r : Register) : excess r.text.toList = 0 :=
  excess_run (register_plain r)

/-- A base whose parentheses are even and nested has them in pairs. -/
theorem IsBase.pair (allowed : k.parens = fun opening closing => opening = closing) {s : Shape}
    {cs awaited rest : List Char} (h : IsBase g s cs) (even : excess cs = 0)
    (nested : nestedFrom awaited (cs ++ rest) = true) : IsBase k s cs := by
  cases s with
  | register r o =>
    obtain ⟨offset, hoffset, rfl⟩ := h
    rw [excess_append, excess_register, Int.zero_add] at even
    exact ⟨offset, hoffset.pair allowed even, rfl⟩
  | immediate n => exact IsInteger.pair allowed h even
  | inner r o1 o2 =>
    obtain ⟨first, second, hfirst, hsecond, rfl⟩ := h
    have no_square : ∀ c ∈ r.text.toList ++ first, c ≠ '[' ∧ c ≠ ']' := by
      intro c hc
      rcases List.mem_append.mp hc with hc | hc
      · exact not_square_of_plain (register_plain r c hc)
      · exact hfirst.not_square c hc
    have inside : excess (r.text.toList ++ first) = 0 := by
      have squared : nestedFrom (List.replicate 0 ')' ++ ']' :: awaited)
          (r.text.toList ++ first ++ ']' :: (second ++ rest)) = true := by
        simpa using nested
      simpa using excess_of_square no_square squared
    have opening : excess ['['] = 0 := by decide
    have closing : excess [']'] = 0 := by decide
    rw [excess_cons, excess_append, excess_cons ']' second, inside, opening, closing] at even
    rw [excess_append, excess_register, Int.zero_add] at inside
    exact ⟨first, second, hfirst.pair allowed inside, hsecond.pair allowed (by omega), rfl⟩

/-- The text is a base with text around it in which parentheses are even, and has the property for
every grammar that has the base. -/
def Surrounds (g : Grammar) (s : Shape) (P : Grammar → List Char → Prop) (cs : List Char) : Prop :=
  ∃ front base back, cs = front ++ (base ++ back) ∧ IsBase g s base ∧ excess cs = excess base ∧
    ∀ k : Grammar, k.body = g.body → IsBase k s base → P k cs

theorem Surrounds.around {s : Shape} {P Q : Grammar → List Char → Prop} {mid : List Char}
    (h : Surrounds g s P mid) (front back : List Char) (even : excess (front ++ back) = 0)
    (wrap : ∀ k : Grammar, k.body = g.body → P k mid → Q k (front ++ mid ++ back)) :
    Surrounds g s Q (front ++ mid ++ back) := by
  obtain ⟨front', base, back', rfl, hbase, same, build⟩ := h
  refine ⟨front ++ front', base, back' ++ back, by simp, hbase, ?_, ?_⟩
  · rw [excess_append] at even
    rw [excess_append, excess_append, same]
    omega
  · exact fun k body hbase' => wrap k body (build k body hbase')

theorem Surrounds.padded {s : Shape} {P : Grammar → List Char → Prop} {cs : List Char}
    (h : Padded (fun mid => Surrounds g s P mid) cs) :
    Surrounds g s (fun k => Padded (P k)) cs := by
  obtain ⟨front, mid, back, blank, blank', inside, rfl⟩ := h
  refine inside.around front back ?_ fun k _ hmid => ⟨front, mid, back, blank, blank', hmid, rfl⟩
  rw [excess_append, excess_blank blank, excess_blank blank']
  rfl

theorem Padded.imp {P Q : List Char → Prop} {cs : List Char}
    (imp : ∀ {mid}, mid <:+: cs → P mid → Q mid) (h : Padded P cs) : Padded Q cs := by
  obtain ⟨front, mid, back, blank, blank', inside, rfl⟩ := h
  exact ⟨front, mid, back, blank, blank', imp ⟨front, back, rfl⟩ inside, rfl⟩

theorem IsBase.surrounds {s : Shape} {cs : List Char} (h : IsBase g s cs) :
    Surrounds g s (fun k => IsBase k s) cs :=
  ⟨[], cs, [], by simp, h, rfl, fun _ _ h' => h'⟩

theorem excess_type {type : TypeName} (dotted : type.IsDotted) : excess type.chars = 0 := by
  refine excess_run fun c hc => ?_
  rcases List.mem_append.mp hc with hc | hc
  · exact not_mem_brackets (by decide +kernel) (dotted.2 c hc)
  · rw [List.eq_of_mem_replicate hc]
    decide

theorem IsExpression.surrounds {s : Shape} {type : TypeName} {cs : List Char}
    (h : IsExpression g s type cs) : Surrounds g s (fun k => IsExpression k s type) cs := by
  cases h with
  | bare base => exact ⟨[], cs, [], by simp, base, rfl, fun _ _ h' => .bare h'⟩
  | @cast _ body gap base allowed blank dotted =>
    have padded := Surrounds.padded (base.imp fun _ => IsBase.surrounds)
    have comma : excess [','] = 0 := by decide
    have whole := padded.around (Q := fun k => IsExpression k s type)
      ['c', 'a', 's', 't', '('] (',' :: (gap ++ type.chars ++ [')'])) ?_ ?_
    · simpa using whole
    · rw [excess_append, excess_cons ',', excess_append, excess_append, excess_blank blank,
        excess_type dotted, comma]
      decide
    · intro k body' hbase
      have := IsExpression.cast (g := k) hbase (body' ▸ allowed) blank dotted
      simpa using this

theorem IsAddress.surrounds {f : Shape × Bool × TypeName} {cs : List Char}
    (h : IsAddress g f cs) : Surrounds g f.1 (fun k => IsAddress k f) cs := by
  cases h with
  | direct expression =>
    obtain ⟨front, base, back, split, hbase, same, build⟩ :=
      Surrounds.padded (expression.imp fun _ => IsExpression.surrounds)
    exact ⟨front, base, back, split, hbase, same, fun k body h' => .direct (build k body h')⟩
  | @dereferenced s type front inside back blank blank' expression =>
    have padded := Surrounds.padded (expression.imp fun _ => IsExpression.surrounds)
    have whole := padded.around (Q := fun k => IsAddress k (s, true, type.pointee))
      (front ++ ['[']) (']' :: back) ?_ ?_
    · simpa using whole
    · have opening : excess ['['] = 0 := by decide
      have closing : excess [']'] = 0 := by decide
      rw [excess_append, excess_append, excess_cons ']', excess_blank blank, excess_blank blank',
        opening, closing]
      rfl
    · intro k _ hinside
      have := IsAddress.dereferenced (g := k) blank blank' hinside
      simpa using this

/-- An address with nested brackets has its parentheses in pairs. -/
theorem IsAddress.pair (allowed : k.parens = fun opening closing => opening = closing)
    (body : k.body = g.body) {f : Shape × Bool × TypeName} {cs : List Char}
    (h : IsAddress g f cs) (nested : Nested cs) : IsAddress k f cs := by
  obtain ⟨front, base, back, rfl, hbase, same, build⟩ := h.surrounds
  have even : excess base = 0 := by
    rw [← same]
    simpa using excess_of_nestedFrom nested
  obtain ⟨awaited, nested'⟩ := exists_nestedFrom nested
  exact build k body (hbase.pair allowed even nested')

/-! ## Grammars that allow more -/

section Monotone

variable (parens : ∀ opening closing, g.parens opening closing → k.parens opening closing)

include parens

theorem IsInteger.mono {s : SignedDigits} {cs : List Char} (h : IsInteger g s cs) :
    IsInteger k s cs := by
  obtain ⟨opening, closing, ds, allowed, digits, rfl⟩ := h
  exact ⟨opening, closing, ds, parens opening closing allowed, digits, rfl⟩

theorem IsOffset.mono {o : Option SignedDigits} {cs : List Char} (h : IsOffset g o cs) :
    IsOffset k o cs := by
  cases o with
  | none => exact h
  | some s =>
    obtain ⟨before, after, number, blank, blank', integer, rfl⟩ := h
    exact ⟨before, after, number, blank, blank', integer.mono parens, rfl⟩

theorem IsBase.mono {s : Shape} {cs : List Char} (h : IsBase g s cs) : IsBase k s cs := by
  cases s with
  | register r o =>
    obtain ⟨offset, hoffset, rfl⟩ := h
    exact ⟨offset, hoffset.mono parens, rfl⟩
  | inner r o1 o2 =>
    obtain ⟨first, second, hfirst, hsecond, rfl⟩ := h
    exact ⟨first, second, hfirst.mono parens, hsecond.mono parens, rfl⟩
  | immediate n => exact IsInteger.mono parens h

theorem IsExpression.mono {s : Shape} {type : TypeName} {cs : List Char}
    (body : ∀ part, part <:+: cs → g.body part → k.body part) (h : IsExpression g s type cs) :
    IsExpression k s type cs := by
  cases h with
  | bare base => exact .bare (base.mono parens)
  | @cast _ part gap base allowed blank dotted =>
    have inside : part <:+: castText part gap type :=
      ⟨['c', 'a', 's', 't', '('], ',' :: (gap ++ type.chars ++ [')']), by simp [castText]⟩
    exact .cast (base.imp fun _ => IsBase.mono parens) (body part inside allowed) blank dotted

theorem IsAddress.mono {f : Shape × Bool × TypeName} {cs : List Char}
    (body : ∀ part, part <:+: cs → g.body part → k.body part) (h : IsAddress g f cs) :
    IsAddress k f cs := by
  cases h with
  | direct expression =>
    refine .direct (expression.imp fun inside => ?_)
    exact IsExpression.mono parens fun part within => body part (within.trans inside)
  | @dereferenced s type front inside back blank blank' expression =>
    have surrounded : inside <:+: front ++ ('[' :: (inside ++ [']'])) ++ back :=
      ⟨front ++ ['['], ']' :: back, by simp⟩
    refine .dereferenced blank blank' (expression.imp fun inside' => ?_)
    exact IsExpression.mono parens
      fun part within => body part ((within.trans inside').trans surrounded)

end Monotone

/-! ## The grammars compared -/

/-- What the reader takes has its parentheses in pairs exactly when its brackets are nested. -/
theorem isAddress_oneLine_iff {f : Shape × Bool × TypeName} {cs : List Char} :
    IsAddress .oneLine f cs ↔ IsAddress .read f cs ∧ Nested cs := by
  constructor
  · intro h
    have any : IsAddress .read f cs :=
      IsAddress.mono (g := .oneLine) (k := .read) (fun _ _ _ => trivial) (fun _ _ body => body) h
    exact ⟨any, h.nested fun _ _ same => same⟩
  · rintro ⟨h, nested⟩
    exact IsAddress.pair (g := .read) (k := .oneLine) rfl rfl h nested

theorem isAddress_paired_iff {f : Shape × Bool × TypeName} {cs : List Char}
    (one_line : '\n' ∉ cs) : IsAddress .paired f cs ↔ IsAddress .oneLine f cs := by
  constructor
  · intro h
    exact IsAddress.mono (g := .paired) (k := .oneLine) (fun _ _ same => same)
      (fun part inside _ mem => one_line (inside.subset mem)) h
  · intro h
    exact IsAddress.mono (g := .oneLine) (k := .paired) (fun _ _ same => same)
      (fun _ _ _ => trivial) h

end FieldProgram.Address

import FieldProgram.Proofs.Address.Parts

/-!
# Brackets in addresses

Only integers, inner dereferences, casts and the outermost dereference put brackets into an address.

* `Enclosed`: what a property of texts needs so that bases and expressions have it;
* `closesLast_expression`: the bracket that is open before an expression is closed right behind it;
* `IsBase.tight`, `IsExpression.tight`: no blanks at the ends.
-/

namespace FieldProgram.Address

open Numeral Text

def brackets : List Char := ['(', ')', '[', ']']

theorem not_mem_brackets {p : Char → Bool} (no_bracket : brackets.all (fun b => !p b) = true)
    {c : Char} (h : p c = true) : c ∉ brackets := by
  intro mem
  have outside := List.all_eq_true.mp no_bracket c mem
  rw [h] at outside
  cases outside

theorem not_square_of_plain {c : Char} (plain : c ∉ brackets) : c ≠ '[' ∧ c ≠ ']' := by
  simp [brackets] at plain
  exact plain.2.2

theorem register_plain (r : Register) : ∀ c ∈ r.text.toList, c ∉ brackets := by
  cases r <;> simp [Register.text, brackets]

/-- The property passes from parts to the whole, and to the whole in brackets. -/
structure Enclosed (g : Grammar) (P : List Char → Prop) : Prop where
  nil : P []
  append {as bs : List Char} : P as → P bs → P (as ++ bs)
  plain {c : Char} : c ∉ brackets → P [c]
  round {cs : List Char} : P cs → P ('(' :: (cs ++ [')']))
  square {cs : List Char} : P cs → P ('[' :: (cs ++ [']']))
  integer {s : SignedDigits} {cs : List Char} : IsInteger g s cs → P cs

namespace Enclosed

variable {g : Grammar} {P : List Char → Prop} (enclosed : Enclosed g P)

include enclosed

theorem run {cs : List Char} (h : ∀ c ∈ cs, c ∉ brackets) : P cs := by
  induction cs with
  | nil => exact enclosed.nil
  | cons c cs ih =>
    obtain ⟨first, others⟩ := List.forall_mem_cons.mp h
    exact enclosed.append (enclosed.plain first) (ih others)

theorem blank {cs : List Char} (h : AllBlank cs) : P cs :=
  enclosed.run fun c hc => not_mem_brackets (by decide) (h c hc)

theorem register (r : Register) : P r.text.toList := enclosed.run (register_plain r)

theorem offset {o : Option SignedDigits} {cs : List Char} (h : IsOffset g o cs) : P cs := by
  cases o with
  | none =>
    obtain rfl : cs = [] := h
    exact enclosed.nil
  | some s =>
    obtain ⟨before, after, number, blank, blank', integer, rfl⟩ := h
    have plus : P ['+'] := enclosed.plain (by decide)
    have behind := enclosed.append (enclosed.blank blank') (enclosed.integer integer)
    exact enclosed.append (enclosed.blank blank) (enclosed.append plus behind)

theorem base {s : Shape} {cs : List Char} (h : IsBase g s cs) : P cs := by
  cases s with
  | register r o =>
    obtain ⟨offset, hoffset, rfl⟩ := h
    exact enclosed.append (enclosed.register r) (enclosed.offset hoffset)
  | inner r o1 o2 =>
    obtain ⟨first, second, hfirst, hsecond, rfl⟩ := h
    have inside := enclosed.append (enclosed.register r) (enclosed.offset hfirst)
    have whole := enclosed.append (enclosed.square inside) (enclosed.offset hsecond)
    simpa using whole
  | immediate n => exact enclosed.integer h

theorem padded {Q : List Char → Prop} (inside : ∀ {cs}, Q cs → P cs) {cs : List Char}
    (h : Padded Q cs) : P cs := by
  obtain ⟨front, mid, back, blank, blank', hmid, rfl⟩ := h
  exact enclosed.append (enclosed.append (enclosed.blank blank) (inside hmid))
    (enclosed.blank blank')

theorem type {type : TypeName} (dotted : type.IsDotted) : P type.chars := by
  refine enclosed.append (enclosed.run fun c hc => ?_) (enclosed.run fun c hc => ?_)
  · exact not_mem_brackets (by decide +kernel) (dotted.2 c hc)
  · rw [List.eq_of_mem_replicate hc]
    decide

theorem expression {s : Shape} {type : TypeName} {cs : List Char}
    (h : IsExpression g s type cs) : P cs := by
  cases h with
  | bare base => exact enclosed.base base
  | @cast _ body gap base allowed blank dotted =>
    have name : P ['c', 'a', 's', 't'] := enclosed.run (by simp [brackets])
    have comma : P [','] := enclosed.plain (by decide)
    have behind := enclosed.append (enclosed.blank blank) (enclosed.type dotted)
    have inside := enclosed.append (enclosed.padded enclosed.base base)
      (enclosed.append comma behind)
    have whole := enclosed.append name (enclosed.round inside)
    simpa using whole

theorem address {f : Shape × Bool × TypeName} {cs : List Char} (h : IsAddress g f cs) : P cs := by
  cases h with
  | direct expression => exact enclosed.padded enclosed.expression expression
  | dereferenced blank blank' expression =>
    have inside := enclosed.padded enclosed.expression expression
    exact enclosed.append (enclosed.append (enclosed.blank blank) (enclosed.square inside))
      (enclosed.blank blank')

end Enclosed

/-! ## Open brackets stay open -/

theorem IsInteger.not_square {g : Grammar} {s : SignedDigits} {cs : List Char}
    (h : IsInteger g s cs) : ∀ c ∈ cs, c ≠ '[' ∧ c ≠ ']' := by
  obtain ⟨opening, closing, ds, -, digits, rfl⟩ := h
  intro c hc
  simp only [List.mem_append] at hc
  rcases hc with ((hc | hc) | hc) | hc
  · rw [eq_of_mem_only hc]
    decide
  · rw [eq_of_mem_only hc]
    decide
  · exact not_square_of_plain
      (not_mem_brackets (by decide) (isDecimalDigit_of_isDigits digits c hc))
  · rw [eq_of_mem_only hc]
    decide

/-- The bracket that is open before the text is open behind it. -/
def Balanced (cs : List Char) : Prop :=
  ∀ depth rest, closesLast (depth + 1) (cs ++ rest) = closesLast (depth + 1) rest

theorem balanced_singleton {c : Char} (ne_open : c ≠ '[') (ne_close : c ≠ ']') :
    Balanced [c] := by
  intro depth rest
  simp [closesLast, ne_open, ne_close]

theorem Balanced.append {as bs : List Char} (h : Balanced as) (h' : Balanced bs) :
    Balanced (as ++ bs) := by
  intro depth rest
  rw [List.append_assoc, h, h']

theorem Balanced.square {cs : List Char} (h : Balanced cs) : Balanced ('[' :: (cs ++ [']'])) := by
  intro depth rest
  have inside := h (depth + 1) (']' :: rest)
  simpa [closesLast] using inside

theorem balanced_nil : Balanced [] := fun _ _ => rfl

theorem balanced_run {cs : List Char} (h : ∀ c ∈ cs, c ≠ '[' ∧ c ≠ ']') : Balanced cs := by
  induction cs with
  | nil => exact balanced_nil
  | cons c cs ih =>
    obtain ⟨⟨ne_open, ne_close⟩, others⟩ := List.forall_mem_cons.mp h
    exact (balanced_singleton ne_open ne_close).append (ih others)

theorem enclosed_balanced (g : Grammar) : Enclosed g Balanced where
  nil := balanced_nil
  append := Balanced.append
  plain := by
    intro c hc
    obtain ⟨ne_open, ne_close⟩ := not_square_of_plain hc
    exact balanced_singleton ne_open ne_close
  round := by
    intro cs h
    have opening : Balanced ['('] := balanced_singleton (by decide) (by decide)
    have closing : Balanced [')'] := balanced_singleton (by decide) (by decide)
    exact opening.append (h.append closing)
  square := Balanced.square
  integer h := balanced_run h.not_square

theorem closesLast_expression {g : Grammar} {s : Shape} {type : TypeName} {cs : List Char}
    (h : Padded (IsExpression g s type) cs) : closesLast 1 (cs ++ [']']) = true := by
  have enclosed := enclosed_balanced g
  rw [enclosed.padded enclosed.expression h 0 [']']]
  rfl

/-! ## No blanks at the ends -/

theorem StartsInteger.not_blank {c : Char} (h : StartsInteger c) : isBlank c = false := by
  rcases h with rfl | rfl | digit
  · decide
  · decide
  · exact isBlank_of_isDecimalDigit digit

theorem EndsInteger.not_blank {c : Char} (h : EndsInteger c) : isBlank c = false := by
  rcases h with rfl | digit
  · decide
  · exact isBlank_of_isDecimalDigit digit

theorem IsOffset.ends {g : Grammar} {o : Option SignedDigits} {cs : List Char}
    (h : IsOffset g o cs) : cs = [] ∨ ∃ front c, cs = front ++ [c] ∧ EndsInteger c := by
  cases o with
  | none => exact .inl h
  | some s =>
    obtain ⟨before, after, number, -, -, integer, rfl⟩ := h
    obtain ⟨front, c, rfl, last⟩ := integer.ends
    exact .inr ⟨before ++ '+' :: (after ++ front), c, by simp, last⟩

theorem IsBase.starts {g : Grammar} {s : Shape} {cs : List Char} (h : IsBase g s cs) :
    ∃ c rest, cs = c :: rest ∧ (c = 'a' ∨ c = 'f' ∨ c = '[' ∨ StartsInteger c) := by
  cases s with
  | register r o =>
    obtain ⟨offset, -, rfl⟩ := h
    cases r with
    | ap => exact ⟨'a', _, rfl, .inl rfl⟩
    | fp => exact ⟨'f', _, rfl, .inr (.inl rfl)⟩
  | inner r o1 o2 =>
    obtain ⟨first, second, -, -, rfl⟩ := h
    exact ⟨'[', _, rfl, .inr (.inr (.inl rfl))⟩
  | immediate n =>
    obtain ⟨c, rest, rfl, first⟩ := IsInteger.starts h
    exact ⟨c, rest, rfl, .inr (.inr (.inr first))⟩

theorem IsBase.ends {g : Grammar} {s : Shape} {cs : List Char} (h : IsBase g s cs) :
    ∃ front c, cs = front ++ [c] ∧ (c = 'p' ∨ c = ']' ∨ EndsInteger c) := by
  cases s with
  | register r o =>
    obtain ⟨offset, hoffset, rfl⟩ := h
    rcases hoffset.ends with rfl | ⟨front, c, rfl, last⟩
    · refine ⟨r.text.toList.dropLast, 'p', ?_, .inl rfl⟩
      cases r <;> rfl
    · exact ⟨r.text.toList ++ front, c, by simp, .inr (.inr last)⟩
  | inner r o1 o2 =>
    obtain ⟨first, second, -, hsecond, rfl⟩ := h
    rcases hsecond.ends with rfl | ⟨front, c, rfl, last⟩
    · exact ⟨'[' :: (r.text.toList ++ first), ']', by simp, .inr (.inl rfl)⟩
    · exact ⟨'[' :: (r.text.toList ++ first ++ ']' :: front), c, by simp, .inr (.inr last)⟩
  | immediate n =>
    obtain ⟨front, c, rfl, last⟩ := IsInteger.ends h
    exact ⟨front, c, rfl, .inr (.inr last)⟩

theorem IsBase.tight {g : Grammar} {s : Shape} {cs : List Char} (h : IsBase g s cs) :
    Tight cs := by
  obtain ⟨c, rest, hc, first⟩ := h.starts
  obtain ⟨front, d, hd, last⟩ := h.ends
  rw [hc]
  refine tight_of_ends (hd.symm.trans hc) ?_ ?_
  · rcases first with rfl | rfl | rfl | first
    · decide
    · decide
    · decide
    · exact first.not_blank
  · rcases last with rfl | rfl | last
    · decide
    · decide
    · exact last.not_blank

theorem IsExpression.tight {g : Grammar} {s : Shape} {type : TypeName} {cs : List Char}
    (h : IsExpression g s type cs) : Tight cs := by
  cases h with
  | bare base => exact base.tight
  | @cast _ body gap base allowed blank dotted =>
    have ends : ['c', 'a', 's', 't', '('] ++ (body ++ ',' :: (gap ++ type.chars)) ++ [')'] =
        'c' :: (['a', 's', 't', '('] ++ (body ++ ',' :: (gap ++ type.chars)) ++ [')']) := rfl
    simpa using tight_of_ends ends (by decide) (by decide)

/-- Trimming leaves what blanks surround. -/
theorem trim_padded {P : List Char → Prop} (tight : ∀ {cs}, P cs → Tight cs) {cs : List Char}
    (h : Padded P cs) : P (trim cs) := by
  obtain ⟨front, mid, back, blank, blank', inside, rfl⟩ := h
  rwa [trim_append blank blank' (tight inside)]

end FieldProgram.Address

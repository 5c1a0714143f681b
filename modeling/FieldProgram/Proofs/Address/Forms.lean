import FieldProgram.Proofs.Address.Brackets

/-!
# Reading casts, expressions and forms

* `castOf?_sound`, `castOf?_castText`: what a cast is taken apart into;
* `form?_sound`: a form that is found is one of the text;
* `form?_of_isAddress`: a form of the text is found, where a register in brackets counts as
  dereferenced.
-/

namespace FieldProgram.Address

open Numeral Text

/-! ## Casts -/

theorem star_not_name : TypeName.isNameChar '*' = false := by decide

theorem isNameChar_of_isBlank {c : Char} (h : isBlank c = true) :
    TypeName.isNameChar c = false := by
  have known : ∀ n ∈ blankCodes, TypeName.isNameChar (Char.ofNat n) = false := by decide +kernel
  have := known c.toNat (toNat_mem_blankCodes h)
  rwa [Char.ofNat_toNat] at this

/-- The text of a cast. -/
def castText (body gap : List Char) (type : TypeName) : List Char :=
  ['c', 'a', 's', 't', '('] ++ (body ++ ',' :: (gap ++ type.chars ++ [')']))

theorem castOf?_sound {cs body : List Char} {type : TypeName}
    (h : castOf? cs = some (body, type)) :
    ∃ gap, AllBlank gap ∧ type.IsDotted ∧ '\n' ∉ body ∧ cs = castText body gap type := by
  unfold castOf? at h
  split at h
  · rename_i after
    split at h
    · rename_i back hback
      obtain ⟨stars, unstarred, rfl, all_stars, take_stars, drop_stars⟩ :=
        exists_run (· == '*') back
      obtain ⟨name, unnamed, rfl, all_name, take_name, drop_name⟩ :=
        exists_run TypeName.isNameChar unstarred
      simp only [take_stars, drop_stars, take_name, drop_name] at h
      split at h
      · rename_i c cs reversed hname hreversed
        split at h
        · cases h
        · rename_i allowed
          obtain ⟨rfl, rfl⟩ := Prod.mk.inj (Option.some.inj h)
          obtain ⟨gap, blank, hgap⟩ := exists_trimStart unnamed
          refine ⟨gap.reverse, blank.reverse, ⟨?_, ?_⟩, ?_, ?_⟩
          · rw [String.toList_ofList, hname]
            exact List.cons_ne_nil c cs
          · intro d hd
            rw [String.toList_ofList] at hd
            exact all_name d (List.mem_reverse.mp hd)
          · intro line_feed
            exact allowed (.inr (List.mem_reverse.mp line_feed))
          · have written : stars = List.replicate stars.length '*' :=
              List.eq_replicate_of_mem fun d hd => by simpa using all_stars d hd
            have text : after = reversed.reverse ++ ',' :: (gap.reverse ++
                (name.reverse ++ List.replicate stars.length '*') ++ [')']) := by
              rw [← List.reverse_reverse after, hback, hgap, hreversed, ← List.reverse_replicate,
                ← written]
              simp
            rw [text, castText, TypeName.chars, String.toList_ofList]
            rfl
      · cases h
    · cases h
  · cases h

/-- A text starts with no character of a kind if none is in its front and none starts the rest. -/
theorem head?_append_not {p : Char → Bool} {as bs : List Char} (front : ∀ c ∈ as, p c = false)
    (behind : ∀ c ∈ bs.head?, p c = false) : ∀ c ∈ (as ++ bs).head?, p c = false := by
  cases as with
  | nil => exact behind
  | cons a as =>
    rintro _ ⟨⟩
    exact front a (List.mem_cons_self ..)

theorem castOf?_castText {body gap : List Char} {type : TypeName} (some_body : body ≠ [])
    (one_line : '\n' ∉ body) (blank : AllBlank gap) (dotted : type.IsDotted) :
    castOf? (castText body gap type) = some (body, type) := by
  obtain ⟨name, stars⟩ := type
  obtain ⟨some_name, all⟩ : name.toList ≠ [] ∧ ∀ c ∈ name.toList, TypeName.isNameChar c = true :=
    dotted
  have backwards : (body ++ ',' :: (gap ++ (TypeName.mk name stars).chars ++ [')'])).reverse =
      ')' :: (List.replicate stars '*' ++ (name.toList.reverse ++ (gap.reverse ++
        ',' :: body.reverse))) := by
    simp [TypeName.chars]
  have all_stars : ∀ c ∈ List.replicate stars '*', (c == '*') = true := by
    intro c hc
    simp [List.eq_of_mem_replicate hc]
  have all_name : ∀ c ∈ name.toList.reverse, TypeName.isNameChar c = true :=
    fun c hc => all c (List.mem_reverse.mp hc)
  have comma {p : Char → Bool} (other : p ',' = false) :
      ∀ c ∈ (',' :: body.reverse).head?, p c = false := by
    rintro _ ⟨⟩
    exact other
  have no_star : ∀ c ∈ (name.toList.reverse ++ (gap.reverse ++ ',' :: body.reverse)).head?,
      (c == '*') = false := by
    refine head?_append_not (fun c hc => beq_false_of_ne ?_)
      (head?_append_not (fun c hc => beq_false_of_ne ?_) (comma (by decide)))
    · rintro rfl
      cases star_not_name.symm.trans (all_name '*' hc)
    · rintro rfl
      exact absurd (blank.reverse '*' hc) (by decide)
  have no_name : ∀ c ∈ (gap.reverse ++ ',' :: body.reverse).head?,
      TypeName.isNameChar c = false :=
    head?_append_not (fun c hc => isNameChar_of_isBlank (blank.reverse c hc)) (comma (by decide))
  have no_blank : ∀ c ∈ (',' :: body.reverse).head?, isBlank c = false := comma (by decide)
  have behind : trimStart (gap.reverse ++ ',' :: body.reverse) = ',' :: body.reverse :=
    trimStart_append blank.reverse no_blank
  obtain ⟨d, ds, split⟩ := List.exists_cons_of_ne_nil some_name
  have allowed : ¬(body.reverse = [] ∨ '\n' ∈ body.reverse) := by
    simp [some_body, one_line]
  simp only [castText, List.cons_append, List.nil_append, castOf?, backwards,
    takeWhile_run all_stars no_star, dropWhile_run all_stars no_star,
    takeWhile_run all_name no_name, dropWhile_run all_name no_name, List.reverse_reverse, behind,
    List.length_replicate, String.ofList_toList]
  simp only [split, if_neg allowed, List.reverse_reverse]

theorem castOf?_of_head {c : Char} {cs : List Char} (h : c ≠ 'c') : castOf? (c :: cs) = none := by
  unfold castOf?
  split
  · rename_i same
    exact absurd (List.cons.inj same).1 h
  · rfl

/-! ## Expressions -/

theorem expression?_sound {cs : List Char} {s : Shape} {type : TypeName}
    (h : expression? cs = some (s, type)) : IsExpression .read s type cs := by
  unfold expression? at h
  split at h
  · rename_i body type' cast
    obtain ⟨s', hs, same⟩ := Option.map_eq_some_iff.mp h
    obtain ⟨rfl, rfl⟩ := Prod.mk.inj same
    obtain ⟨gap, blank, dotted, one_line, rfl⟩ := castOf?_sound cast
    obtain ⟨front, back, blank', blank'', split⟩ := exists_trim body
    exact .cast ⟨front, trim body, back, blank', blank'', ofChars?_eq_some_iff.mp hs, split⟩
      one_line blank dotted
  · obtain ⟨s', hs, same⟩ := Option.map_eq_some_iff.mp h
    obtain ⟨rfl, rfl⟩ := Prod.mk.inj same
    exact .bare (ofChars?_eq_some_iff.mp hs)

theorem IsBase.not_cast {g : Grammar} {s : Shape} {cs : List Char} (h : IsBase g s cs) :
    castOf? cs = none := by
  obtain ⟨c, rest, rfl, first⟩ := h.starts
  refine castOf?_of_head ?_
  rintro rfl
  revert first
  simp [StartsInteger]
  decide

theorem expression?_of_isExpression {g : Grammar} (one_line : ∀ body, g.body body → '\n' ∉ body)
    {cs : List Char} {s : Shape} {type : TypeName} (h : IsExpression g s type cs) :
    expression? cs = some (s, type) := by
  cases h with
  | bare base => rw [expression?, base.not_cast, ofChars?_of_isBase base]; rfl
  | @cast _ body gap base allowed blank dotted =>
    have read := ofChars?_of_isBase (trim_padded IsBase.tight base)
    have some_body : body ≠ [] := by
      rintro rfl
      cases read
    have taken := castOf?_castText some_body (one_line body allowed) blank dotted
    rw [castText] at taken
    rw [expression?, taken]
    dsimp only
    rw [read]
    rfl

/-! ## Forms -/

theorem bracketed?_sound {cs inside : List Char} (h : bracketed? cs = some inside) :
    ∃ between, cs = '[' :: (between ++ [']']) ∧ inside = trim between := by
  unfold bracketed? at h
  split at h
  · rename_i after
    split at h
    · rename_i last
      split at h
      · obtain rfl := Option.some.inj h
        obtain ⟨between, rfl⟩ := List.getLast?_eq_some_iff.mp last
        exact ⟨between, rfl, by rw [List.dropLast_concat]⟩
      · cases h
    · cases h
  · cases h

theorem form?_sound {cs : List Char} {f : Shape × Bool × TypeName} (h : form? cs = some f) :
    IsAddress .read f cs := by
  obtain ⟨front, back, blank, blank', split⟩ := exists_trim cs
  unfold form? at h
  dsimp only at h
  split at h
  · rename_i inside hinside
    obtain ⟨⟨s, type⟩, hexpression, rfl⟩ := Option.map_eq_some_iff.mp h
    obtain ⟨between, hbetween, rfl⟩ := bracketed?_sound hinside
    obtain ⟨front', back', blank'', blank''', split'⟩ := exists_trim between
    rw [split, hbetween]
    exact .dereferenced blank blank'
      ⟨front', _, back', blank'', blank''', expression?_sound hexpression, split'⟩
  · obtain ⟨⟨s, type⟩, hexpression, rfl⟩ := Option.map_eq_some_iff.mp h
    exact .direct ⟨front, _, back, blank, blank', expression?_sound hexpression, split⟩

/-- An expression in brackets as the text of another. -/
theorem bracketed?_expression {g : Grammar} {s : Shape} {type : TypeName} {inside : List Char}
    (h : Padded (IsExpression g s type) inside) :
    bracketed? ('[' :: (inside ++ [']'])) = some (trim inside) := by
  simp [bracketed?, closesLast_expression h]

theorem bracketed?_of_head {c : Char} {cs : List Char} (h : c ≠ '[') :
    bracketed? (c :: cs) = none := by
  unfold bracketed?
  split
  · rename_i same
    exact absurd (List.cons.inj same).1 h
  · rfl

theorem bracketed?_of_last (cs : List Char) {c : Char} (h : c ≠ ']') :
    bracketed? ('[' :: (cs ++ [c])) = none := by
  simp [bracketed?, h]

theorem IsExpression.bracketed?_eq_none {g : Grammar} {s : Shape} {type : TypeName}
    {cs : List Char} (h : IsExpression g s type cs) :
    bracketed? cs = none ∨ ∃ r o inside, s = .inner r o none ∧ type = .felt ∧
      cs = '[' :: (inside ++ [']']) ∧ IsExpression g (.register r o) .felt inside := by
  cases h with
  | cast => exact .inl (bracketed?_of_head (by decide))
  | bare base =>
    cases s with
    | register r o =>
      obtain ⟨offset, -, rfl⟩ := base
      cases r <;> exact .inl (bracketed?_of_head (by decide))
    | immediate n =>
      obtain ⟨c, rest, rfl, first⟩ := IsInteger.starts base
      refine .inl (bracketed?_of_head ?_)
      rintro rfl
      revert first
      simp [StartsInteger]
      decide
    | inner r o1 o2 =>
      obtain ⟨first, second, hfirst, hsecond, rfl⟩ := base
      cases o2 with
      | none =>
        obtain rfl : second = [] := hsecond
        exact .inr ⟨r, o1, r.text.toList ++ first, rfl, rfl, rfl, .bare ⟨first, hfirst, rfl⟩⟩
      | some s =>
        rcases hsecond.ends with rfl | ⟨front, c, rfl, last⟩
        · obtain ⟨before, after, number, -, -, -, empty⟩ := hsecond
          simp at empty
        · left
          have ne_close : c ≠ ']' := by
            rintro rfl
            revert last
            simp [EndsInteger]
            decide
          have := bracketed?_of_last (r.text.toList ++ first ++ ']' :: front) ne_close
          simpa using this

/-- A form of the text is found, except that a bare inner dereference without a second offset is
found as a dereferenced register. -/
theorem form?_of_isAddress {g : Grammar} (one_line : ∀ body, g.body body → '\n' ∉ body)
    {cs : List Char} {f : Shape × Bool × TypeName} (h : IsAddress g f cs) :
    form? cs = some f ∨ ∃ r o, f = (.inner r o none, false, .felt) ∧
      form? cs = some (.register r o, true, .felt) := by
  unfold form?
  dsimp only
  cases h with
  | @dereferenced s type front inside back blank blank' expression =>
    have ends : ('[' :: inside) ++ [']'] = '[' :: (inside ++ [']']) := rfl
    have tight := tight_of_ends ends (by decide) (by decide)
    have found := expression?_of_isExpression one_line (trim_padded IsExpression.tight expression)
    left
    rw [trim_append blank blank' tight, bracketed?_expression expression]
    dsimp only
    rw [found]
    rfl
  | @direct s type cs expression =>
    have trimmed := trim_padded IsExpression.tight expression
    have found := expression?_of_isExpression one_line trimmed
    rcases trimmed.bracketed?_eq_none with outside | ⟨r, o, inside, rfl, rfl, whole, register⟩
    · left
      rw [outside, found]
      rfl
    · right
      have padded : Padded (IsExpression g (.register r o) .felt) inside :=
        ⟨[], inside, [], by simp, by simp, register, by simp⟩
      have inner := expression?_of_isExpression one_line (trim_padded IsExpression.tight padded)
      refine ⟨r, o, rfl, ?_⟩
      rw [whole, bracketed?_expression padded]
      dsimp only
      rw [inner]
      rfl

end FieldProgram.Address

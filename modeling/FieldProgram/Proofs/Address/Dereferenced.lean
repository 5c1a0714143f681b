import FieldProgram.Proofs.Address.Render

/-!
# Addresses in brackets and between blanks

Brackets around the text of an address that is not dereferenced are read as its dereference, and as
nothing else: they surround the whole text, whatever brackets are inside.

* `form?_bracketed`: the form of a text in brackets;
* `read_blank_append`: blanks around a text are not read;
* `read_bracketed`: the address of a text in brackets.
-/

namespace FieldProgram

open Text

/-! ## Types -/

/-- The text of a type with one star less, where there is a star at its end. -/
theorem TypeName.chars_pointee {t : TypeName} (dotted : t.IsDotted) :
    t.pointee.chars =
      if t.chars.getLast? = some '*' then t.chars.dropLast else t.chars := by
  obtain ⟨name, stars⟩ := t
  cases stars with
  | zero =>
    have last : (TypeName.mk name 0).chars.getLast? ≠ some '*' := by
      intro star
      have mem : '*' ∈ name.toList := List.mem_of_getLast? (by simpa [chars] using star)
      have name_char := dotted.2 '*' mem
      rw [Address.star_not_name] at name_char
      cases name_char
    rw [if_neg last]
    rfl
  | succ stars =>
    have written :
        (TypeName.mk name (stars + 1)).chars = (TypeName.mk name stars).chars ++ ['*'] := by
      simp [chars, List.replicate_succ']
    rw [written, if_pos (by simp), List.dropLast_concat]
    rfl

namespace Address

/-! ## Forms -/

theorem form?_blank_append {front back : List Char} (blank : AllBlank front)
    (blank' : AllBlank back) (cs : List Char) : form? (front ++ cs ++ back) = form? cs := by
  unfold form?
  rw [trim_blank_append blank blank']

/-- What stands in the added brackets is the expression itself, as its own brackets close inside. -/
theorem form?_bracketed {cs : List Char} {s : Shape} {type : TypeName}
    (h : form? cs = some (s, false, type)) :
    form? ('[' :: (cs ++ [']'])) = some (s, true, type.pointee) := by
  have found : expression? (trim cs) = some (s, type) := by
    unfold form? at h
    dsimp only at h
    split at h
    · obtain ⟨f, -, same⟩ := Option.map_eq_some_iff.mp h
      cases same
    · obtain ⟨f, hf, same⟩ := Option.map_eq_some_iff.mp h
      cases same
      exact hf
  obtain ⟨front, back, blank, blank', split⟩ := exists_trim cs
  have inside : Padded (IsExpression .read s type) cs :=
    ⟨front, trim cs, back, blank, blank', expression?_sound found, split⟩
  have ends : ('[' :: cs) ++ [']'] = '[' :: (cs ++ [']']) := rfl
  have tight := tight_of_ends ends (by decide) (by decide)
  have whole : trim ('[' :: (cs ++ [']'])) = '[' :: (cs ++ [']']) := by
    simpa using trim_append allBlank_nil allBlank_nil tight
  unfold form?
  dsimp only
  rw [whole, bracketed?_expression inside]
  dsimp only
  rw [found]
  rfl

/-! ## Reading -/

theorem read_blank_append {front back : List Char} (blank : AllBlank front)
    (blank' : AllBlank back) (x : Text) : read (ofChars front ++ x ++ ofChars back) = read x := by
  have same : (ofChars front ++ x ++ ofChars back).chars?.bind form? = x.chars?.bind form? := by
    cases hx : x.chars? with
    | some cs =>
      obtain rfl := chars?_eq_some_iff.mp hx
      have whole : ofChars front ++ ofChars cs ++ ofChars back = ofChars (front ++ cs ++ back) := by
        rw [ofChars_append, ofChars_append]
      rw [whole, chars?_ofChars]
      exact form?_blank_append blank blank' cs
    | none =>
      -- a lone half in the text is one in the longer text
      rw [chars?_append, chars?_append, hx]
      simp
  unfold read
  rw [same]

theorem read_of_bracketed {x : Text} {a : Address} (h : read x = .ok (some a))
    (direct : a.dereference = false) :
    read (("[" : Text) ++ x ++ ("]" : Text)) =
      .ok (some { a with dereference := true, valueType := a.valueType.pointee }) := by
  obtain ⟨cs, s, chars, form, hb⟩ := form?_of_read_some h
  rw [direct] at form
  have whole : ("[" : Text) ++ x ++ ("]" : Text) = ofChars ('[' :: (cs ++ [']'])) := by
    rw [chars]
    exact (ofChars_append ('[' :: cs) [']']).symm
  rw [read_of_form? whole (form?_bracketed form), hb]
  rfl

/-- Brackets around the text of an address that is not dereferenced make it so: only the dereference
and the type change, which loses one star from its end if there is one. Blanks around any text
change nothing in what it is read as. -/
theorem read_bracketed :
    (∀ (x : Text) (a : Address), read x = .ok (some a) → a.dereference = false →
      read (("[" : Text) ++ x ++ ("]" : Text)) =
          .ok (some { a with dereference := true, valueType := a.valueType.pointee }) ∧
        a.valueType.pointee.chars =
          if a.valueType.chars.getLast? = some '*' then a.valueType.chars.dropLast
          else a.valueType.chars) ∧
    ∀ (x : Text) (front back : List Char), AllBlank front → AllBlank back →
      read (ofChars front ++ x ++ ofChars back) = read x := by
  refine ⟨fun x a h direct => ?_, fun x front back blank blank' => ?_⟩
  · exact ⟨read_of_bracketed h direct, TypeName.chars_pointee (read_wellFormed h).dotted⟩
  · exact read_blank_append blank blank' x

/-- An inner dereference that is cast, with blanks before it. -/
theorem read_bracketed_inner :
    read " cast([fp] + 2, felt*)" = .ok (some ⟨.inner .fp 0 2, false, ⟨"felt", 1⟩⟩) ∧
    read "[ cast([fp] + 2, felt*)]" = .ok (some ⟨.inner .fp 0 2, true, ⟨"felt", 0⟩⟩) ∧
    AllBlank ['\t'] ∧ read "\t[fp]\t" = read "[fp]" := by
  have direct : read " cast([fp] + 2, felt*)" =
      .ok (some ⟨.inner .fp 0 2, false, ⟨"felt", 1⟩⟩) := by
    decide +kernel
  have blank : AllBlank ['\t'] := by
    intro c hc
    rw [List.mem_singleton.mp hc]
    decide
  exact ⟨direct, (read_bracketed.1 _ _ direct rfl).1, blank,
    read_bracketed.2 "[fp]" ['\t'] ['\t'] blank blank⟩

end Address

end FieldProgram

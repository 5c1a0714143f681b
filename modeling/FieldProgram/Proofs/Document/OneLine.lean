import FieldProgram.Document.Layer
import FieldProgram.Proofs.Outcome

/-!
# Displays on one line

The display of a text has escapes for its line feeds, and the other displays have none. So what a
message shows of a document stays on the line that it is on.

* `Document.shown_oneLine`: the display of a document has no line feed.
-/

namespace FieldProgram

open Numeral

/-- A text without line feeds. -/
def OneLine (cs : List Char) : Prop := '\n' ∉ cs

instance (cs : List Char) : Decidable (OneLine cs) := inferInstanceAs (Decidable (¬_))

namespace OneLine

variable {as bs cs : List Char} {parts : List (List Char)}

@[simp] theorem nil : OneLine [] := List.not_mem_nil

@[simp] theorem cons_iff {c : Char} : OneLine (c :: cs) ↔ c ≠ '\n' ∧ OneLine cs := by
  simp [OneLine, eq_comm]

@[simp] theorem append_iff : OneLine (as ++ bs) ↔ OneLine as ∧ OneLine bs := by
  simp [OneLine]

theorem replicate {c : Char} (h : c ≠ '\n') (k : Nat) : OneLine (List.replicate k c) :=
  fun mem => h (List.eq_of_mem_replicate mem).symm

theorem of_subset (h : OneLine as) (fewer : bs ⊆ as) : OneLine bs := fun mem => h (fewer mem)

theorem intercalate (h : OneLine as) (all : ∀ p ∈ parts, OneLine p) :
    OneLine (as.intercalate parts) := by
  induction parts with
  | nil => exact nil
  | cons p ps ih =>
    obtain ⟨first, others⟩ := List.forall_mem_cons.mp all
    cases ps with
    | nil => simpa using first
    | cons q qs =>
      rw [List.intercalate_cons_of_ne_nil (List.cons_ne_nil _ _)]
      simp [first, h, ih others]

theorem digits {ds : List Nat} (h : ∀ d ∈ ds, d < 16) : OneLine (ds.map Nat.digitChar) := by
  have all : ∀ d < 16, Nat.digitChar d ≠ '\n' := by decide
  intro mem
  obtain ⟨d, hd, same⟩ := List.mem_map.mp mem
  exact all d (h d hd) same

theorem decimalDigits (n : Nat) : OneLine (decimalDigits n) :=
  digits fun d hd => Nat.lt_trans (digits_lt (by decide) n d hd) (by decide)

end OneLine

/-! ## Displays -/

theorem shortDecimal_oneLine (n : Int) : OneLine (shortDecimal n).toList := by
  rw [shortDecimal, String.toList_ofList, OneLine.append_iff]
  refine ⟨?_, .decimalDigits _⟩
  split <;> decide

theorem hexDigitsPadded_oneLine (width n : Nat) : OneLine (hexDigitsPadded width n) :=
  OneLine.append_iff.mpr ⟨.replicate (by decide) _, .digits (digits_lt (by decide) n)⟩

namespace Text

theorem quotedChar_oneLine {quote : Char} (h : quote ≠ '\n') (c : Char) :
    OneLine (quotedChar quote c) := by
  unfold quotedChar
  split
  · rename_i special
    have other : c ≠ '\n' := by
      rintro rfl
      simp [h.symm] at special
    simp [other]
  · split
    · decide
    · rename_i other
      have other : c ≠ '\n' := by simpa using other
      split
      · decide
      · split
        · decide
        · split
          · simp [other]
          · split
            · simp [hexDigitsPadded_oneLine]
            · split <;> simp [hexDigitsPadded_oneLine]

theorem quoted_oneLine (t : Text) : OneLine t.quoted.toList := by
  have quote : t.quoteFor ≠ '\n' := by
    unfold quoteFor
    split <;> decide
  have inside : OneLine (t.codes.flatMap (quotedCode t.quoteFor)) := by
    intro mem
    obtain ⟨c, -, mem⟩ := List.mem_flatMap.mp mem
    cases c with
    | char c => exact quotedChar_oneLine quote c mem
    | lone half =>
      have escape : OneLine ('\\' :: 'u' :: hexDigitsPadded 4 (Code.lone half).number) := by
        simp [hexDigitsPadded_oneLine]
      exact escape mem
  rw [quoted, String.toList_ofList]
  simp [quote, inside]

end Text

namespace Binary64

theorem positional_oneLine {ds : List Char} (h : OneLine ds) (whole : Int) :
    OneLine (positional ds whole) := by
  have zeros (k : Nat) : OneLine (List.replicate k '0') := .replicate (by decide) k
  unfold positional
  split
  · simp [zeros, h]
  · have front := h.of_subset (List.take_subset whole.toNat ds)
    have back := h.of_subset (List.drop_subset whole.toNat ds)
    simp only [OneLine.append_iff, OneLine.cons_iff, front, zeros, true_and]
    refine ⟨by decide, ?_⟩
    split
    · decide
    · exact back

theorem scientific_oneLine {ds : List Char} (h : OneLine ds) (style : Style) (power : Int) :
    OneLine (scientific style ds power) := by
  have zeros (k : Nat) : OneLine (List.replicate k '0') := .replicate (by decide) k
  have first := h.of_subset (List.take_subset 1 ds)
  have point : OneLine (if ds.drop 1 = [] then [] else '.' :: ds.drop 1) := by
    split
    · decide
    · exact OneLine.cons_iff.mpr ⟨by decide, h.of_subset (List.drop_subset 1 ds)⟩
  have sign : (if power < 0 then '-' else '+') ≠ '\n' := by split <;> decide
  have exponent := OneLine.append_iff.mpr
    ⟨zeros (style.exponentWidth - (decimalDigits power.natAbs).length), .decimalDigits power.natAbs⟩
  have letter : 'e' ≠ '\n' := by decide
  exact OneLine.append_iff.mpr ⟨OneLine.append_iff.mpr ⟨first, point⟩,
    OneLine.cons_iff.mpr ⟨letter, OneLine.cons_iff.mpr ⟨sign, exponent⟩⟩⟩

theorem text_oneLine (x : Binary64) : OneLine x.text.toList := by
  cases x with
  | nan => decide
  | infinity s => cases s <;> decide
  | finite s m e =>
    have sign : OneLine (if s then "-" else "").toList := by cases s <;> decide
    have digits (d : Decimal) : OneLine (d.chars plainStyle) := by
      unfold Decimal.chars
      dsimp only
      split
      · exact scientific_oneLine (.decimalDigits _) _ _
      · exact positional_oneLine (.decimalDigits _) _
    rw [text, textIn, String.toList_append, String.toList_ofList]
    exact OneLine.append_iff.mpr ⟨sign, digits _⟩

end Binary64

namespace Document

theorem joined_oneLine {parts : List String} (h : ∀ p ∈ parts, OneLine p.toList) :
    OneLine ([',', ' '].intercalate (parts.map String.toList)) := by
  refine .intercalate (by decide) fun p hp => ?_
  obtain ⟨s, hs, rfl⟩ := List.mem_map.mp hp
  exact h s hs

mutual

theorem shown_oneLine : (d : Document) → ∀ levels s, d.shown levels = .ok s → OneLine s.toList
  | .null, _, s, h => by
    rw [shown] at h
    obtain rfl := Except.ok.inj h
    decide
  | .bool b, _, s, h => by
    rw [shown] at h
    obtain rfl := Except.ok.inj h
    cases b <;> decide
  | .int n, _, s, h => by
    rw [shown, decimalText] at h
    split at h
    · obtain rfl := Except.ok.inj h
      exact shortDecimal_oneLine n
    · cases h
  | .float x, _, s, h => by
    rw [shown] at h
    obtain rfl := Except.ok.inj h
    exact x.text_oneLine
  | .str t, _, s, h => by
    rw [shown] at h
    obtain rfl := Except.ok.inj h
    exact t.quoted_oneLine
  | .list items, _, s, h => by
    rw [shown] at h
    obtain ⟨-, -, h⟩ := Except.bind_eq_ok.mp h
    obtain ⟨parts, hparts, h⟩ := Except.bind_eq_ok.mp h
    obtain rfl := Except.ok.inj h
    have inside := joined_oneLine (shownItems_oneLine items _ parts hparts)
    simp [Display.list, inside]
  | .map members, _, s, h => by
    rw [shown] at h
    obtain ⟨-, -, h⟩ := Except.bind_eq_ok.mp h
    obtain ⟨parts, hparts, h⟩ := Except.bind_eq_ok.mp h
    obtain rfl := Except.ok.inj h
    have inside := joined_oneLine (shownMembers_oneLine members _ parts hparts)
    simp [Display.braced, inside]

theorem shownItems_oneLine : (xs : List Document) →
    ∀ levels parts, shownItems levels xs = .ok parts → ∀ p ∈ parts, OneLine p.toList
  | [], _, parts, h => by
    rw [shownItems] at h
    obtain rfl := Except.ok.inj h
    simp
  | x :: xs, _, parts, h => by
    rw [shownItems] at h
    obtain ⟨first, hfirst, h⟩ := Except.bind_eq_ok.mp h
    obtain ⟨rest, hrest, h⟩ := Except.bind_eq_ok.mp h
    obtain rfl := Except.ok.inj h
    exact List.forall_mem_cons.mpr
      ⟨shown_oneLine x _ first hfirst, shownItems_oneLine xs _ rest hrest⟩

theorem shownMembers_oneLine : (ms : List (Text × Document)) →
    ∀ levels parts, shownMembers levels ms = .ok parts → ∀ p ∈ parts, OneLine p.toList
  | [], _, parts, h => by
    rw [shownMembers] at h
    obtain rfl := Except.ok.inj h
    simp
  | (k, v) :: ms, _, parts, h => by
    rw [shownMembers] at h
    obtain ⟨value, hvalue, h⟩ := Except.bind_eq_ok.mp h
    obtain ⟨rest, hrest, h⟩ := Except.bind_eq_ok.mp h
    obtain rfl := Except.ok.inj h
    have first : OneLine (Display.member k.quoted value).toList := by
      simp [Display.member, k.quoted_oneLine, shown_oneLine v _ value hvalue]
    exact List.forall_mem_cons.mpr ⟨first, shownMembers_oneLine ms _ rest hrest⟩

end

end Document

end FieldProgram

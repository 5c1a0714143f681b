import FieldProgram.Yaml.Scalar.Plain
import FieldProgram.Yaml.Scalar.Quoted

/-!
# What cursors pass

The blanks and line breaks between the parts of a scalar are passed in several ways. All that is
needed of them is what is left behind them.

* `Cursor.Passes`: one cursor stands behind another with blanks and line breaks between them only;
* `quotedGap_yields`, `quotedBreaks_yields`, `passes_plainGap`: what is passed inside scalars;
* `Result.Yields`: a reading gives such a result unless the text is malformed.
-/

namespace FieldProgram.Yaml

/-! ## Readings of malformed texts -/

/-- A reading gives a result of which `P` holds, unless the text is malformed. -/
def Result.Yields {α : Type} (r : Result α) (P : α → Prop) : Prop :=
  match r with
  | .ok a => P a
  | .error (.malformed _) => True
  | .error (.value _) => False

namespace Result.Yields

variable {α β : Type} {P Q : α → Prop} {r : Result α}

theorem ok {a : α} (h : P a) : Yields (.ok a) P := h

theorem imp (h : r.Yields P) (imp : ∀ a, P a → Q a) : r.Yields Q := by
  cases r with
  | ok a => exact imp a h
  | error e =>
    cases e with
    | malformed _ => trivial
    | value _ => exact h.elim

theorem bind {f : α → Result β} {R : β → Prop} (h : r.Yields P) (next : ∀ a, P a → (f a).Yields R) :
    (r >>= f).Yields R := by
  cases r with
  | ok a => exact next a h
  | error e =>
    cases e with
    | malformed _ => trivial
    | value _ => exact h.elim

theorem of_ok {a : α} (h : r.Yields P) (eq : r = .ok a) : P a := by
  subst eq
  exact h

end Result.Yields

/-! ## What is left -/

namespace Cursor

variable {c d e : Cursor}

@[simp] theorem rest_advance (c : Cursor) : c.advance.rest = c.rest.tail := by
  unfold advance
  split
  · rename_i h
    simp [h]
  · rename_i ch rest h
    simp only [h, List.tail_cons]
    split
    · rfl
    · split <;> rfl

@[simp] theorem rest_forward (c : Cursor) (n : Nat) : (c.forward n).rest = c.rest.drop n := by
  induction n generalizing c with
  | zero => rfl
  | succ n ih => rw [forward, ih, rest_advance, List.drop_tail]

@[simp] theorem rest_span (p : Char → Bool) (c : Cursor) :
    (c.span p).2.rest = c.rest.dropWhile p := by
  rw [span, rest_forward]
  calc c.rest.drop (c.rest.takeWhile p).length
      = (c.rest.takeWhile p ++ c.rest.dropWhile p).drop (c.rest.takeWhile p).length := by
        rw [List.takeWhile_append_dropWhile]
    _ = c.rest.dropWhile p := List.drop_left

@[simp] theorem rest_skip (p : Char → Bool) (c : Cursor) : (c.skip p).rest = c.rest.dropWhile p :=
  rest_span p c

theorem rest_lineBreak_of_lineFeed {r : List Char} (h : c.rest = '\n' :: r) :
    c.lineBreak = (['\n'], c.advance) := by
  rw [lineBreak]
  split
  · rename_i same
    rw [h] at same
    cases same
  · rename_i same
    rw [h] at same
    obtain ⟨rfl, -⟩ := List.cons.inj same
    rfl
  · rename_i same
    rw [h] at same
    cases same

/-! ## Passing blanks and line breaks -/

/-- A cursor stands behind another one, with blanks and line breaks between them only. -/
def Passes (c d : Cursor) : Prop :=
  ∃ gap, c.rest = gap ++ d.rest ∧ ∀ ch ∈ gap, blankOrEnd (some ch) = true

theorem Passes.refl (c : Cursor) : c.Passes c := ⟨[], rfl, by simp⟩

theorem Passes.trans (h : c.Passes d) (h' : d.Passes e) : c.Passes e := by
  obtain ⟨gap, rest, blank⟩ := h
  obtain ⟨gap', rest', blank'⟩ := h'
  refine ⟨gap ++ gap', by rw [rest, rest', List.append_assoc], fun ch mem => ?_⟩
  rcases List.mem_append.mp mem with mem | mem
  · exact blank ch mem
  · exact blank' ch mem

theorem passes_span {p : Char → Bool} (h : ∀ ch, p ch = true → blankOrEnd (some ch) = true)
    (c : Cursor) : c.Passes (c.span p).2 := by
  refine ⟨c.rest.takeWhile p, ?_, fun ch mem => ?_⟩
  · rw [rest_span, List.takeWhile_append_dropWhile]
  · exact h ch (List.all_eq_true.mp List.all_takeWhile ch mem)

theorem passes_skip {p : Char → Bool} (h : ∀ ch, p ch = true → blankOrEnd (some ch) = true)
    (c : Cursor) : c.Passes (c.skip p) :=
  passes_span h c

theorem passes_advance {ch : Char} (next : c.next? = some ch)
    (blank : blankOrEnd (some ch) = true) : c.Passes c.advance := by
  obtain ⟨r, rest⟩ := List.head?_eq_some_iff.mp next
  exact ⟨[ch], by simp [rest], by simpa using blank⟩

theorem blankOrEnd_of_isBreak {ch : Char} (h : isBreak ch = true) :
    blankOrEnd (some ch) = true := by
  simp [blankOrEnd, h]

theorem passes_lineBreak (c : Cursor) : c.Passes c.lineBreak.2 := by
  unfold lineBreak
  split
  · rename_i r rest
    exact ⟨['\r', '\n'], by simp [rest], by simp [blankOrEnd, isBreak]⟩
  · rename_i ch r _ rest
    have next : c.next? = some ch := by rw [next?, rest]; rfl
    split
    · rename_i separator
      refine passes_advance next ?_
      simp only [Bool.or_eq_true, beq_iff_eq] at separator
      rcases separator with rfl | rfl <;> rfl
    · split
      · rename_i line
        exact passes_advance next (blankOrEnd_of_isBreak line)
      · exact .refl c
  · exact .refl c

end Cursor

open Cursor

theorem blankOrEnd_of_space {ch : Char} (h : (ch == ' ') = true) : blankOrEnd (some ch) = true := by
  simp only [blankOrEnd, Option.all_some, h, Bool.true_or]

theorem blankOrEnd_of_spaceOrTab {ch : Char} (h : (ch == ' ' || ch == '\t') = true) :
    blankOrEnd (some ch) = true := by
  simp only [blankOrEnd, Option.all_some, h, Bool.true_or]

/-! ## Inside quoted scalars -/

theorem quotedBreaks_yields (fuel : Nat) (read : List Char) (c : Cursor) :
    (quotedBreaks fuel read c).Yields fun r => c.Passes r.2 := by
  induction fuel generalizing read c with
  | zero => exact .refl c
  | succ fuel ih =>
    rw [quotedBreaks]
    split
    · trivial
    · have blanks := passes_skip (fun ch => blankOrEnd_of_spaceOrTab) c
      dsimp only
      split
      · exact (ih _ _).imp fun r passes => blanks.trans ((passes_lineBreak _).trans passes)
      · exact blanks

theorem quotedGap_yields (c : Cursor) : (quotedGap c).Yields fun r => c.Passes r.2 := by
  have blanks := passes_span (fun ch => blankOrEnd_of_spaceOrTab) c
  rw [quotedGap]
  dsimp only
  split
  · trivial
  · split
    · refine (quotedBreaks_yields _ _ _).bind fun r passes => ?_
      exact blanks.trans ((passes_lineBreak _).trans passes)
    · exact blanks

/-! ## Inside plain scalars -/

theorem passes_plainBreaks (fuel : Nat) (read : List Char) (c : Cursor) :
    c.Passes (plainBreaks fuel read c).2 := by
  induction fuel generalizing read c with
  | zero => exact .refl c
  | succ fuel ih =>
    rw [plainBreaks]
    split
    · rename_i ch next
      split
      · rename_i space
        exact (passes_advance next (blankOrEnd_of_space space)).trans (ih _ _)
      · split
        · dsimp only
          split
          · exact passes_lineBreak c
          · exact (passes_lineBreak c).trans (ih _ _)
        · exact .refl c
    · exact .refl c

theorem passes_of_plainBreaks {fuel : Nat} {read : List Char} {c d : Cursor}
    {r : Option (List Char)} (h : plainBreaks fuel read c = (r, d)) : c.Passes d := by
  have passed := passes_plainBreaks fuel read c
  rwa [h] at passed

theorem passes_plainGap (c : Cursor) : c.Passes (plainGap c).after := by
  have spaces := passes_span (fun ch => blankOrEnd_of_space) c
  have line := spaces.trans (passes_lineBreak _)
  unfold plainGap
  dsimp only
  split
  · split
    · exact line
    · split
      · rename_i same
        exact line.trans (passes_of_plainBreaks same)
      · rename_i same
        exact line.trans (passes_of_plainBreaks same)
  · exact spaces

end FieldProgram.Yaml

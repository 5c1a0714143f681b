import Mathlib.Data.List.TakeWhile
import FieldProgram.Text.Blank
import FieldProgram.Text.DecimalDigit

/-!
# Blanks around a text

* `trim_append`: trimming takes off exactly the blanks around a text that has none at its ends;
* `exists_trim`, `tight_trim`: every text is what is left of it with blanks around, and what is left
  has none at its ends;
* `trim_blank_append`: more blanks around a text make no difference;
* `toNat_mem_blankCodes`: there are few blanks, so they can be gone through one by one.
-/

namespace FieldProgram.Text

/-! ## Runs of characters -/

variable {α : Type} {p : α → Bool} {run rest : List α}

theorem takeWhile_run (all : ∀ c ∈ run, p c = true) (stop : ∀ c ∈ rest.head?, p c = false) :
    (run ++ rest).takeWhile p = run := by
  rw [List.takeWhile_append_of_pos all]
  cases rest with
  | nil => simp
  | cons c rest => simp [stop c rfl]

theorem dropWhile_run (all : ∀ c ∈ run, p c = true) (stop : ∀ c ∈ rest.head?, p c = false) :
    (run ++ rest).dropWhile p = rest := by
  rw [List.dropWhile_append_of_pos all]
  cases rest with
  | nil => rfl
  | cons c rest => exact List.dropWhile_cons_of_neg (by simp [stop c rfl])

/-- Every text is a run with what stops it behind. -/
theorem exists_run (p : α → Bool) (cs : List α) :
    ∃ run rest, cs = run ++ rest ∧ (∀ c ∈ run, p c = true) ∧ cs.takeWhile p = run ∧
      cs.dropWhile p = rest :=
  ⟨_, _, List.takeWhile_append_dropWhile.symm, fun _ hc => List.mem_takeWhile_imp hc, rfl, rfl⟩

/-! ## Trimming -/

/-- All characters of the text are blanks. -/
def AllBlank (cs : List Char) : Prop := ∀ c ∈ cs, isBlank c = true

/-- The text neither starts nor ends with a blank. -/
def Tight (cs : List Char) : Prop :=
  (∀ c ∈ cs.head?, isBlank c = false) ∧ ∀ c ∈ cs.getLast?, isBlank c = false

@[simp] theorem allBlank_nil : AllBlank [] := by simp [AllBlank]

theorem AllBlank.reverse {cs : List Char} (h : AllBlank cs) : AllBlank cs.reverse :=
  fun c hc => h c (List.mem_reverse.mp hc)

theorem AllBlank.append {as bs : List Char} (h : AllBlank as) (h' : AllBlank bs) :
    AllBlank (as ++ bs) := List.forall_mem_append.mpr ⟨h, h'⟩

theorem tight_of_ends {c d : Char} {cs ds : List Char} (split : cs ++ [d] = c :: ds)
    (first : isBlank c = false) (last : isBlank d = false) : Tight (c :: ds) := by
  constructor
  · simpa using first
  · rw [← split]
    simpa using last

theorem trimStart_append {front cs : List Char} (blank : AllBlank front)
    (start : ∀ c ∈ cs.head?, isBlank c = false) : trimStart (front ++ cs) = cs :=
  dropWhile_run blank start

theorem trim_append {front cs back : List Char} (blank : AllBlank front) (blank' : AllBlank back)
    (tight : Tight cs) : trim (front ++ cs ++ back) = cs := by
  obtain ⟨start, finish⟩ := tight
  cases cs with
  | nil =>
    have all : AllBlank (front ++ back) := by
      intro c hc
      rcases List.mem_append.mp hc with hc | hc
      · exact blank c hc
      · exact blank' c hc
    have nothing : trimStart (front ++ back ++ []) = [] := trimStart_append all (by simp)
    rw [List.append_nil] at nothing ⊢
    rw [trim, nothing]
    rfl
  | cons c cs =>
    have first : trimStart (front ++ (c :: cs) ++ back) = (c :: cs) ++ back := by
      rw [List.append_assoc]
      exact trimStart_append blank (by simpa using start)
    have last : ∀ d ∈ (c :: cs).reverse.head?, isBlank d = false := by
      rw [List.head?_reverse]
      exact finish
    rw [trim, first, trimEnd, List.reverse_append]
    show (trimStart (back.reverse ++ (c :: cs).reverse)).reverse = _
    rw [trimStart_append blank'.reverse last, List.reverse_reverse]

theorem exists_trimStart (cs : List Char) :
    ∃ front, AllBlank front ∧ cs = front ++ trimStart cs :=
  ⟨cs.takeWhile isBlank, fun _ hc => List.mem_takeWhile_imp hc,
    List.takeWhile_append_dropWhile.symm⟩

theorem exists_trimEnd (cs : List Char) :
    ∃ back, AllBlank back ∧ trimStart cs = trim cs ++ back := by
  obtain ⟨back, blank, split⟩ := exists_trimStart (trimStart cs).reverse
  refine ⟨back.reverse, blank.reverse, ?_⟩
  rw [← List.reverse_reverse (trimStart cs), split, List.reverse_append]
  rfl

theorem exists_trim (cs : List Char) :
    ∃ front back, AllBlank front ∧ AllBlank back ∧ cs = front ++ trim cs ++ back := by
  obtain ⟨front, blank, split⟩ := exists_trimStart cs
  obtain ⟨back, blank', whole⟩ := exists_trimEnd cs
  refine ⟨front, back, blank, blank', ?_⟩
  rw [List.append_assoc, ← whole]
  exact split

theorem not_blank_of_head_trimStart {cs rest : List Char} {c : Char}
    (h : trimStart cs = c :: rest) : isBlank c = false := by
  have left : cs.dropWhile isBlank = c :: rest := h
  have first := List.head?_dropWhile_not isBlank cs
  rw [left] at first
  exact first

theorem tight_trim (cs : List Char) : Tight (trim cs) := by
  constructor
  · intro c hc
    obtain ⟨rest, head⟩ := List.head?_eq_some_iff.mp hc
    obtain ⟨back, -, whole⟩ := exists_trimEnd cs
    rw [head] at whole
    exact not_blank_of_head_trimStart whole
  · intro c hc
    rw [trim, trimEnd, List.getLast?_reverse] at hc
    obtain ⟨rest, head⟩ := List.head?_eq_some_iff.mp hc
    exact not_blank_of_head_trimStart head

/-- More blanks around a text do not show when it is trimmed. -/
theorem trim_blank_append {front back : List Char} (blank : AllBlank front)
    (blank' : AllBlank back) (cs : List Char) : trim (front ++ cs ++ back) = trim cs := by
  obtain ⟨before, after, more, more', split⟩ := exists_trim cs
  have whole : front ++ cs ++ back = (front ++ before) ++ trim cs ++ (after ++ back) := by
    rw [split, trim_append more more' (tight_trim cs)]
    simp only [List.append_assoc]
  rw [whole]
  exact trim_append (blank.append more) (more'.append blank') (tight_trim cs)

/-! ## Classes apart -/

/-- The code points of blanks. -/
def blankCodes : List Nat := blankRanges.flatMap fun r => List.range' r.1 (r.2 + 1 - r.1)

theorem toNat_mem_blankCodes {c : Char} (h : isBlank c = true) : c.toNat ∈ blankCodes := by
  obtain ⟨r, hr, low, high⟩ := CodeRanges.has_iff.mp h
  refine List.mem_flatMap.mpr ⟨r, hr, ?_⟩
  rw [List.mem_range']
  exact ⟨c.toNat - r.1, by omega, by omega⟩

theorem isDecimalDigit_of_isBlank {c : Char} (h : isBlank c = true) :
    isDecimalDigit c = false := by
  have known : ∀ n ∈ blankCodes, isDecimalDigit (Char.ofNat n) = false := by decide +kernel
  have := known c.toNat (toNat_mem_blankCodes h)
  rwa [Char.ofNat_toNat] at this

theorem isBlank_of_isDecimalDigit {c : Char} (h : isDecimalDigit c = true) :
    isBlank c = false := by
  cases blank : isBlank c with
  | false => rfl
  | true => simp [isDecimalDigit_of_isBlank blank] at h

end FieldProgram.Text

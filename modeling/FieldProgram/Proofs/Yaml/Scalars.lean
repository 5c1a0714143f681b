import FieldProgram.Proofs.Json.Lexical
import FieldProgram.Proofs.Numeral.Grammar
import FieldProgram.Proofs.Yaml.Cursor
import FieldProgram.Yaml.Read

/-!
# Scalars of JSON as scalars of YAML

A string of JSON is a scalar between double quotes and a word or a number of JSON a plain one, if
YAML can read them at all. Of a string it may read other code points, but not of one that is visible
throughout.

* `Cursor.Shows`, `Cursor.Nears`: what is left of a JSON text at a cursor, at once or behind blanks;
* `quotedScalar_yields`: a string is read up to its closing quote;
* `plainScalar_nears`: a word or a number is read as a whole.
-/

namespace FieldProgram.Yaml

open Json (skipSpace isSpace Units Visible StartsPlain plainChars plainStarts)

/-! ## Line feeds for all line breaks -/

theorem plainBreaksOf_cons {ch : Char} (h : ch ≠ '\r') (r : List Char) :
    plainBreaksOf (ch :: r) = ch :: plainBreaksOf r := by
  rw [plainBreaksOf]
  · exact fun _ same => absurd same h
  · exact h

theorem plainBreaksOf_append {chars : List Char} (h : '\r' ∉ chars) (r : List Char) :
    plainBreaksOf (chars ++ r) = chars ++ plainBreaksOf r := by
  induction chars with
  | nil => rfl
  | cons ch chars ih =>
    rw [List.mem_cons, not_or] at h
    rw [List.cons_append, plainBreaksOf_cons (Ne.symm h.1), ih h.2, List.cons_append]

/-- The blanks of JSON, line breaks being line feeds. -/
def isJsonBlank (ch : Char) : Bool := ch == ' ' || ch == '\t' || ch == '\n'

/-- Blanks in front of a text stay blanks. -/
theorem plainBreaksOf_blanks {blanks r : List Char} (h : ∀ ch ∈ blanks, isSpace (.char ch) = true)
    (no_lineFeed : ∀ s, r ≠ '\n' :: s) :
    ∃ blanks', plainBreaksOf (blanks ++ r) = blanks' ++ plainBreaksOf r ∧
      ∀ ch ∈ blanks', isJsonBlank ch = true := by
  induction blanks using plainBreaksOf.induct with
  | case1 => exact ⟨[], rfl, by simp⟩
  | case2 bs ih =>
    obtain ⟨blanks', same, blank⟩ := ih fun ch mem => h ch (by simp [mem])
    refine ⟨'\n' :: blanks', ?_, List.forall_mem_cons.mpr ⟨rfl, blank⟩⟩
    rw [List.cons_append, List.cons_append, plainBreaksOf, same, List.cons_append]
  | case3 bs no_second ih =>
    obtain ⟨blanks', same, blank⟩ := ih fun ch mem => h ch (by simp [mem])
    refine ⟨'\n' :: blanks', ?_, List.forall_mem_cons.mpr ⟨rfl, blank⟩⟩
    rw [List.cons_append, plainBreaksOf, same, List.cons_append]
    intro s second
    cases bs with
    | nil => exact no_lineFeed s second
    | cons b bs => exact no_second bs (by rw [(List.cons.inj second).1])
  | case4 ch bs _ no_return ih =>
    obtain ⟨blanks', same, blank⟩ := ih fun ch mem => h ch (by simp [mem])
    refine ⟨ch :: blanks', ?_, List.forall_mem_cons.mpr ⟨?_, blank⟩⟩
    · rw [List.cons_append, plainBreaksOf_cons no_return, same, List.cons_append]
    · have space := h ch (List.mem_cons_self ..)
      simp only [isSpace, Bool.or_eq_true, beq_iff_eq, Code.char.injEq] at space
      simp only [isJsonBlank, Bool.or_eq_true, beq_iff_eq]
      exact space.resolve_right no_return

/-! ## What is left of a JSON text -/

namespace Cursor

variable {c d : Cursor} {cs rest units : List Code}

/-- The code points are left at a cursor. -/
def Shows (c : Cursor) (cs : List Code) : Prop :=
  ∃ chars, cs = chars.map .char ∧ c.rest = plainBreaksOf chars

/-- The code points are left at a cursor behind blanks. -/
def Nears (c : Cursor) (cs : List Code) : Prop :=
  ∃ blanks chars, cs = chars.map .char ∧ c.rest = blanks ++ plainBreaksOf chars ∧
    ∀ ch ∈ blanks, isJsonBlank ch = true

theorem Shows.of_rest (h : c.Shows cs) (same : d.rest = c.rest) : d.Shows cs := by
  obtain ⟨chars, codes, rest⟩ := h
  exact ⟨chars, codes, same.trans rest⟩

theorem Nears.of_rest (h : c.Nears cs) (same : d.rest = c.rest) : d.Nears cs := by
  obtain ⟨blanks, chars, codes, rest, blank⟩ := h
  exact ⟨blanks, chars, codes, same.trans rest, blank⟩

theorem Shows.nears (h : c.Shows cs) : c.Nears (skipSpace cs) := by
  obtain ⟨chars, rfl, rest⟩ := h
  have parts := List.takeWhile_append_dropWhile (p := fun ch => isSpace (.char ch)) (l := chars)
  have blank : ∀ ch ∈ chars.takeWhile (fun ch => isSpace (.char ch)), isSpace (.char ch) = true :=
    fun ch mem => List.all_eq_true.mp List.all_takeWhile ch mem
  have no_lineFeed (s : List Char) :
      chars.dropWhile (fun ch => isSpace (.char ch)) ≠ '\n' :: s := by
    intro same
    have first := List.head?_dropWhile_not (fun ch => isSpace (.char ch)) chars
    rw [same] at first
    exact absurd (show isSpace (.char '\n') = false from first) (by decide)
  obtain ⟨blanks, same, blank'⟩ := plainBreaksOf_blanks blank no_lineFeed
  rw [parts] at same
  refine ⟨blanks, _, ?_, rest.trans same, blank'⟩
  rw [skipSpace, List.dropWhile_map]
  rfl

/-- A character that is no line break is next at the cursor. -/
theorem Shows.cons {ch : Char} (h : c.Shows (.char ch :: cs)) (no_return : ch ≠ '\r') :
    c.rest = ch :: c.advance.rest ∧ c.advance.Shows cs := by
  obtain ⟨chars, codes, rest⟩ := h
  obtain ⟨ch', chars, rfl, same, left⟩ := List.map_eq_cons_iff.mp codes.symm
  obtain rfl := Code.char.inj same
  rw [plainBreaksOf_cons no_return] at rest
  have behind : c.advance.rest = plainBreaksOf chars := by rw [rest_advance, rest, List.tail_cons]
  exact ⟨by rw [behind, rest], chars, left.symm, behind⟩

theorem Shows.char {x : Code} (h : c.Shows (x :: cs)) : ∃ ch, x = .char ch := by
  obtain ⟨chars, codes, -⟩ := h
  obtain ⟨ch, -, -, same, -⟩ := List.map_eq_cons_iff.mp codes.symm
  exact ⟨ch, same.symm⟩

/-- Characters that are no line breaks are next at the cursor. -/
theorem Shows.append {chars : List Char} (h : c.Shows (chars.map .char ++ cs))
    (no_return : '\r' ∉ chars) :
    ∃ r, c.rest = chars ++ r ∧ ∀ d : Cursor, d.rest = r → d.Shows cs := by
  obtain ⟨all, codes, rest⟩ := h
  obtain ⟨front, back, rfl, same, behind⟩ := List.append_eq_map_iff.mp codes
  have same : front = chars := List.map_injective_iff.mpr (fun _ _ => Code.char.inj) same
  subst same
  rw [plainBreaksOf_append no_return] at rest
  exact ⟨_, rest, fun d left => ⟨back, behind.symm, left⟩⟩

end Cursor

open Cursor

variable {c d : Cursor} {cs rest units : List Code}

/-! ## Strings -/

theorem not_visible_of_blank {ch : Char} (h : blankOrEnd (some ch) = true) :
    ¬ Visible (.char ch) := by
  simp only [blankOrEnd, isBreak, Option.all_some, Bool.or_eq_true, beq_iff_eq] at h
  rintro ⟨low, high⟩
  rcases h with (rfl | rfl) | (((rfl | rfl) | rfl) | rfl) | rfl
  all_goals revert low high; decide

/-- A character that stands for itself in a string. -/
theorem units_itself {ch : Char} (h : Units (.char ch :: cs) units rest) (no_quote : ch ≠ '"')
    (no_escape : ch ≠ '\\') :
    0x20 ≤ ch.toNat ∧ ∃ others, units = .char ch :: others ∧ Units cs others rest := by
  cases h with
  | close => exact absurd rfl no_quote
  | itself high _ _ others => exact ⟨high, _, rfl, others⟩
  | letter => exact absurd rfl no_escape
  | digits => exact absurd rfl no_escape

/-- Blanks and line breaks inside a string stand for themselves. -/
theorem units_behind {gap : List Char} (shows : c.Shows cs) (spelled : Units cs units rest)
    (left : c.rest = gap ++ d.rest) (blank : ∀ ch ∈ gap, blankOrEnd (some ch) = true) :
    ∃ cs' units', d.Shows cs' ∧ Units cs' units' rest ∧ units = gap.map .char ++ units' := by
  induction gap generalizing c cs units with
  | nil => exact ⟨cs, units, shows.of_rest left.symm, spelled, rfl⟩
  | cons ch gap ih =>
    obtain ⟨first, others⟩ := List.forall_mem_cons.mp blank
    have some_code : cs ≠ [] := by
      rintro rfl
      cases spelled
    obtain ⟨x, r, rfl⟩ := List.exists_cons_of_ne_nil some_code
    obtain ⟨ch', rfl⟩ := shows.char
    have no_return : ch' ≠ '\r' := by
      rintro rfl
      exact absurd (units_itself spelled (by decide) (by decide)).1 (by decide)
    obtain ⟨next, behind⟩ := shows.cons no_return
    rw [left, List.cons_append] at next
    obtain ⟨rfl, left_behind⟩ := List.cons.inj next
    have no_quote : ch ≠ '"' := by
      rintro rfl
      exact absurd first (by decide)
    have no_escape : ch ≠ '\\' := by
      rintro rfl
      exact absurd first (by decide)
    obtain ⟨-, units, rfl, spelled_behind⟩ := units_itself spelled no_quote no_escape
    obtain ⟨cs', units', shows', spelled', rfl⟩ := ih behind spelled_behind left_behind.symm others
    exact ⟨cs', units', shows', spelled', rfl⟩

theorem letterEscape?_of_simpleEscape? {e ch : Char} (h : Json.simpleEscape? e = some ch) :
    letterEscape? e = some ch ∧ e ≠ '\r' := by
  unfold Json.simpleEscape? at h
  split at h
  all_goals cases h
  all_goals exact ⟨rfl, by decide⟩

theorem exists_hexChars {codes : List Code} {ds : List Nat}
    (h : codes.mapM Json.hexCode? = some ds) :
    ∃ chars : List Char, codes = chars.map .char ∧
      List.Forall₂ (fun ch d => Numeral.hexValue? ch = some d) chars ds := by
  have each := mapM_eq_some_iff.mp h
  clear h
  induction each with
  | nil => exact ⟨[], rfl, .nil⟩
  | @cons x d codes ds digit _ ih =>
    obtain ⟨chars, rfl, digits⟩ := ih
    obtain ⟨ch, hch, value⟩ := Option.bind_eq_some_iff.mp digit
    cases x with
    | char ch' =>
      obtain rfl := Option.some.inj hch
      exact ⟨ch' :: chars, rfl, .cons value digits⟩
    | lone half => cases hch

/-- Four digits are the code point that JSON takes them for. -/
theorem escapedCode_four {codes r : List Code} {ds : List Nat} (length : codes.length = 4)
    (hex : codes.mapM Json.hexCode? = some ds) (shows : c.Shows (codes ++ r)) :
    escapedCode 4 c = .ok (.ofNumber (Numeral.ofDigits 16 ds)) ∧ (c.forward 4).Shows r := by
  obtain ⟨chars, rfl, digits⟩ := exists_hexChars hex
  rw [List.length_map] at length
  have no_return : '\r' ∉ chars := by
    intro mem
    obtain ⟨d, -, value⟩ := exists_right_of_forall₂ digits _ mem
    cases value
  obtain ⟨left, rest, behind⟩ := shows.append no_return
  have taken : c.rest.take 4 = chars := by rw [rest, ← length, List.take_left]
  have values : chars.mapM Numeral.hexValue? = some ds := mapM_eq_some_iff.mpr digits
  have four : ds.length = 4 := digits.length_eq.symm.trans length
  have low : Numeral.ofDigits 16 ds < 16 ^ 4 := by
    rw [← four]
    refine Numeral.ofDigits_lt fun d mem => ?_
    obtain ⟨ch, -, value⟩ := exists_left_of_forall₂ digits _ mem
    exact (Numeral.hexValue?_eq_some_iff.mp value).1
  constructor
  · rw [escapedCode, taken, values]
    dsimp only
    rw [four, if_neg (Nat.lt_irrefl 4), if_neg (by rw [codeBound]; omega), if_neg (by omega)]
  · exact behind _ (by rw [rest_forward, rest, ← length, List.drop_left])

theorem escape_letter {e ch : Char} (letter : letterEscape? e = some ch)
    (next : c.rest = e :: c.advance.rest) : escape c = .ok ([.char ch], c.advance) := by
  simp only [escape, next?, next, List.head?_cons, letter]

theorem escape_four {x : Code} (next : c.rest = 'u' :: c.advance.rest)
    (code : escapedCode 4 c.advance = .ok x) : escape c = .ok ([x], c.forward 5) := by
  simp only [escape, next?, next, List.head?_cons]
  show (escapedCode 4 c.advance >>= _) = _
  rw [code]
  rfl

variable {fuel : Nat} {read : List Code}

theorem quotedFrom_escape {x : Code} (next : c.rest = '\\' :: c.advance.rest)
    (escaped : escape c.advance = .ok ([x], d)) :
    quotedFrom .double (fuel + 1) read c = quotedFrom .double fuel (x :: read) d := by
  rw [quotedFrom, next]
  show (escape c.advance >>= _) = _
  rw [escaped]
  rfl

theorem quotedFrom_itself {ch : Char} (next : c.rest = ch :: c.advance.rest) (no_quote : ch ≠ '"')
    (no_escape : ch ≠ '\\') : quotedFrom .double (fuel + 1) read c =
      if blankOrEnd (some ch) then
        quotedGap c >>= fun gap =>
          quotedFrom .double fuel ((gap.1.map .char).reverse ++ read) gap.2
      else quotedFrom .double fuel (.char ch :: read) c.advance := by
  have no_quote' : (ch == Quote.double.char) = false := beq_false_of_ne no_quote
  rw [quotedFrom, next]
  simp only [no_quote', beq_false_of_ne no_escape, Bool.and_false, Bool.false_eq_true, if_false]

/-- What is read of a string up to `rest`: its units behind those read before, if they are all
visible. -/
structure ReadOn (read units rest : List Code) (r : Text × Cursor) : Prop where
  shows : r.2.Shows rest
  codes : (∀ x ∈ units, Visible x) → r.1.codes = read.reverse ++ units

theorem ReadOn.cons {x : Code} {r : Text × Cursor} (h : ReadOn (x :: read) units rest r) :
    ReadOn read (x :: units) rest r where
  shows := h.shows
  codes visible := by
    rw [h.codes (List.forall_mem_cons.mp visible).2]
    simp

theorem quotedFrom_yields (shows : c.Shows cs) (spelled : Units cs units rest) :
    (quotedFrom .double fuel read c).Yields (ReadOn read units rest) := by
  induction fuel generalizing read c cs units with
  | zero => trivial
  | succ fuel ih =>
    cases spelled with
    | close rest =>
      obtain ⟨next, behind⟩ := shows.cons (by decide)
      rw [quotedFrom, next]
      exact ⟨behind, fun _ => (List.append_nil _).symm⟩
    | letter escape others =>
      obtain ⟨letter, no_return⟩ := letterEscape?_of_simpleEscape? escape
      obtain ⟨next, behind⟩ := shows.cons (by decide)
      obtain ⟨next', behind'⟩ := behind.cons no_return
      rw [quotedFrom_escape next (escape_letter letter next')]
      exact (ih behind' others).imp fun _ => ReadOn.cons
    | digits hex others =>
      obtain ⟨next, behind⟩ := shows.cons (by decide)
      obtain ⟨next', behind'⟩ := behind.cons (by decide)
      obtain ⟨code, behind''⟩ := escapedCode_four rfl hex behind'
      rw [quotedFrom_escape next (escape_four next' code)]
      exact (ih behind'' others).imp fun _ => ReadOn.cons
    | itself high no_quote no_escape others =>
      obtain ⟨ch, rfl⟩ := shows.char
      have no_return : ch ≠ '\r' := by
        rintro rfl
        exact absurd high (by decide)
      obtain ⟨next, behind⟩ := shows.cons no_return
      rw [quotedFrom_itself next (fun same => no_quote (by rw [same]))
        fun same => no_escape (by rw [same])]
      split
      · -- what a gap stands for need not be its code points, but a blank is not visible
        rename_i blank
        have spelled := Units.itself high no_quote no_escape others
        refine (quotedGap_yields c).bind fun gap passes => ?_
        obtain ⟨blanks, left, blanks_blank⟩ := passes
        obtain ⟨cs', units', shows', spelled', -⟩ := units_behind shows spelled left blanks_blank
        refine (ih shows' spelled').imp fun t read => ⟨read.shows, fun visible => ?_⟩
        exact absurd (visible _ (List.mem_cons_self ..)) (not_visible_of_blank blank)
      · exact (ih behind others).imp fun _ => ReadOn.cons

/-- A string of JSON is read up to its closing quote, as the same text if that is visible. -/
theorem quotedScalar_yields {r : List Code} {t : Text} (shows : c.Shows (.char '"' :: r))
    (body : Json.string r = .ok (t, rest)) :
    (quotedScalar .double c).Yields fun s =>
      s.2.Shows rest ∧ ((∀ x ∈ t.codes, Visible x) → s.1 = t) := by
  obtain ⟨units, spelled, same⟩ := Json.units_of_string body
  obtain ⟨-, behind⟩ := shows.cons (by decide)
  refine (quotedFrom_yields behind spelled).imp fun s read => ⟨read.shows, fun visible => ?_⟩
  have codes := same visible
  rw [← codes] at visible
  exact congrArg Text.mk ((read.codes visible).trans codes)

/-! ## Words and numbers -/

theorem plainChars_plain {ch : Char} (h : ch ∈ plainChars) :
    blankOrEnd (some ch) = false ∧ ch ≠ '?' ∧ isFlowMark ch = false ∧ ch ≠ ':' ∧ ch ≠ '\r' := by
  have known : plainChars.all (fun ch => !blankOrEnd (some ch) && ch != '?' && !isFlowMark ch &&
      ch != ':' && ch != '\r') = true := by decide
  simpa [and_assoc] using List.all_eq_true.mp known ch h

/-- Inside brackets a word or a number is one run, if a blank, a bracket or a comma follows. -/
theorem plainRun_append {chars r : List Char} (plain : ∀ ch ∈ chars, ch ∈ plainChars)
    (ends : ∀ ch ∈ r.head?, blankOrEnd (some ch) = true ∨ isFlowMark ch = true) :
    plainRun true (chars ++ r) = chars := by
  induction chars with
  | nil =>
    cases r with
    | nil => rfl
    | cons ch r =>
      rw [List.nil_append, plainRun, if_pos]
      rcases ends ch rfl with blank | mark
      · simp [blank]
      · simp [mark]
  | cons ch chars ih =>
    obtain ⟨first, others⟩ := List.forall_mem_cons.mp plain
    obtain ⟨blank, question, mark, colon, -⟩ := plainChars_plain first
    rw [List.cons_append, plainRun, ih others, if_neg]
    simp [blank, question, mark, colon]

/-- Nothing is left, or the next character is no blank. -/
theorem suffix_of_blanks {gap left blanks r : List Char} (same : gap ++ left = blanks ++ r)
    (gap_blank : ∀ ch ∈ gap, blankOrEnd (some ch) = true)
    (ends : ∀ ch ∈ r.head?, blankOrEnd (some ch) = false) : ∃ before, left = before ++ r ∧
      ∀ ch ∈ before, ch ∈ blanks := by
  rcases List.append_eq_append_iff.mp same with ⟨others, rfl, rfl⟩ | ⟨others, rfl, rfl⟩
  · exact ⟨others, rfl, fun ch mem => List.mem_append_right _ mem⟩
  · cases others with
    | nil => exact ⟨[], by simp, by simp⟩
    | cons ch others =>
      have blank := gap_blank ch (by simp)
      rw [ends ch rfl] at blank
      cases blank

theorem plainFrom_of_no_run {indent : Int} {fuel : Nat} {read gap : List Char} {broken : Bool}
    (none : plainRun true c.rest = []) :
    plainFrom true indent fuel read gap broken c = ⟨read, c, broken⟩ := by
  cases fuel with
  | zero => rfl
  | succ fuel =>
    rw [plainFrom]
    dsimp only
    rw [none, ite_self, if_pos rfl]

/-- The code points are none, or a bracket or a comma that may follow a value comes first. -/
def Ends (cs : List Code) : Prop := ∀ x ∈ cs.head?, ∃ ch, x = .char ch ∧ isFlowMark ch = true

theorem Ends.mark {chars : List Char} (h : Ends (chars.map .char)) :
    ∀ ch ∈ (plainBreaksOf chars).head?, isFlowMark ch = true := by
  cases chars with
  | nil => simp [plainBreaksOf]
  | cons ch chars =>
    obtain ⟨ch', same, mark⟩ := h (.char ch) rfl
    obtain rfl := Code.char.inj same
    have no_return : ch ≠ '\r' := by
      rintro rfl
      exact absurd mark (by decide)
    rw [plainBreaksOf_cons no_return]
    rintro _ ⟨⟩
    exact mark

theorem blankOrEnd_of_isFlowMark {ch : Char} (h : isFlowMark ch = true) :
    blankOrEnd (some ch) = false := by
  simp only [isFlowMark, Bool.or_eq_true, beq_iff_eq] at h
  rcases h with (((rfl | rfl) | rfl) | rfl) | rfl <;> decide

theorem blankOrEnd_of_isJsonBlank {ch : Char} (h : isJsonBlank ch = true) :
    blankOrEnd (some ch) = true := by
  simp only [isJsonBlank, Bool.or_eq_true, beq_iff_eq] at h
  rcases h with (rfl | rfl) | rfl <;> rfl

/-- What follows a word or a number ends it. -/
theorem Cursor.Nears.ends (near : c.Nears cs) (ends : Ends cs) :
    ∀ ch ∈ c.rest.head?, blankOrEnd (some ch) = true ∨ isFlowMark ch = true := by
  obtain ⟨blanks, chars, rfl, rest, blank⟩ := near
  intro ch next
  rw [rest] at next
  cases blanks with
  | nil => exact .inr (ends.mark ch next)
  | cons b blanks =>
    obtain rfl := Option.some.inj next
    exact .inl (blankOrEnd_of_isJsonBlank (blank b (List.mem_cons_self ..)))

/-- Behind some of the blanks the code points are still near. -/
theorem Cursor.Nears.behind (near : d.Nears cs) (ends : Ends cs) (passes : d.Passes c) :
    c.Nears cs := by
  obtain ⟨blanks, chars, rfl, rest, json⟩ := near
  obtain ⟨gap, left, blank⟩ := passes
  obtain ⟨before, same, mem⟩ := suffix_of_blanks (left.symm.trans rest) blank
    fun ch next => blankOrEnd_of_isFlowMark (ends.mark ch next)
  exact ⟨before, chars, rfl, same, fun ch h => json ch (mem ch h)⟩

/-- A word or a number of JSON is read as a whole, with some of the blanks behind it. -/
theorem plainScalar_nears {first : Char} {chars : List Char} {indent : Int} (shows : c.Shows cs)
    (spelled : StartsPlain cs first chars rest) (ends : Ends (skipSpace rest)) :
    (plainScalar true indent c).after.Nears (skipSpace rest) := by
  have starts : plainStarts.all (fun ch => plainChars.contains ch && ch != '#') = true := by decide
  obtain ⟨plain, no_comment⟩ : first ∈ plainChars ∧ first ≠ '#' := by
    simpa using List.all_eq_true.mp starts first spelled.start
  have all : ∀ ch ∈ first :: chars, ch ∈ plainChars :=
    List.forall_mem_cons.mpr ⟨plain, spelled.plain⟩
  rw [spelled.spelled] at shows
  obtain ⟨left, rest_eq, behind⟩ :=
    shows.append fun mem => (plainChars_plain (all _ mem)).2.2.2.2 rfl
  have passed : (c.forward (first :: chars).length).rest = left := by
    rw [rest_forward, rest_eq, List.drop_left]
  have near : (c.forward (first :: chars).length).Nears (skipSpace rest) := (behind _ passed).nears
  have run : plainRun true c.rest = first :: chars := by
    rw [rest_eq]
    exact plainRun_append all (passed ▸ near.ends ends)
  have near_behind := near.behind ends (passes_plainGap _)
  have no_run : plainRun true (plainGap (c.forward (first :: chars).length)).after.rest = [] :=
    @plainRun_append [] _ (by simp) (near_behind.ends ends)
  have at_first : c.isAt '#' = false := by
    rw [isAt, next?, rest_eq]
    exact beq_false_of_ne fun same => no_comment (Option.some.inj same)
  rw [plainScalar, plainFrom]
  dsimp only
  rw [at_first, if_neg Bool.false_ne_true, run, if_neg (List.cons_ne_nil _ _)]
  split
  · exact near_behind
  · rw [plainFrom_of_no_run no_run]
    exact near_behind

end FieldProgram.Yaml

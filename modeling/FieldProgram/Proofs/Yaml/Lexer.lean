import FieldProgram.Proofs.Matched
import FieldProgram.Proofs.Yaml.Brackets
import FieldProgram.Proofs.Yaml.Scalars

/-!
# Tokens of JSON texts

The lexer takes the tokens of a JSON text one by one, as long as YAML can read the text at all. What
it holds at each place is told by the depth of brackets and by the tokens so far with the marks of
keys among them.

* `Lexer.Has`: the depth and the tokens that a lexer holds;
* `takeNext_yields`: the next token is taken from its first character on;
* `open_yields`, `close_yields`, `entry_yields`, `string_yields`, `plain_yields`, `colon_yields`:
  one for each kind of token;
* `Lexer.Reaches`: what a run comes by, unless the text is malformed.
-/

namespace FieldProgram.Yaml

open Json (skipSpace StartsPlain plainStarts Visible)

/-! ## Marks of keys -/

theorem weave_append (marks : List KeyMark) (count : Nat) (ts us : List Token) :
    weave marks count (ts ++ us) = weave marks count ts ++ weave marks (count + ts.length) us := by
  induction ts generalizing count with
  | nil => rfl
  | cons t ts ih =>
    rw [List.cons_append, weave, weave, ih, List.length_cons, Nat.add_right_comm, ← Nat.add_assoc]
    simp

/-- Marks of keys that start further on make no difference. -/
theorem weave_of_le {marks : List KeyMark} {count : Nat} {ts : List Token} {m : KeyMark}
    (behind : count + ts.length ≤ m.token) :
    weave (m :: marks) count ts = weave marks count ts := by
  induction ts generalizing count with
  | nil => rfl
  | cons t ts ih =>
    rw [List.length_cons] at behind
    have other : (m.token == count) = false := beq_false_of_ne (by omega)
    rw [weave, weave, ih (by omega), List.find?_cons_of_neg (by simp [other])]

theorem weave_singleton {marks : List KeyMark} {count : Nat} {t : Token}
    (before : ∀ m ∈ marks, m.token < count) : weave marks count [t] = [t] := by
  have none : marks.find? (·.token == count) = none :=
    List.find?_eq_none.mpr fun m mem => by simpa using Nat.ne_of_lt (before m mem)
  rw [weave, none]
  rfl

/-! ## What a lexer holds -/

namespace Lexer

variable {l l' : Lexer} {depth : Nat} {woven : List Token} {cs rest : List Code}

/-- The depth of brackets, and the tokens so far. No block is open, and no key is marked that starts
further on. -/
structure Has (l : Lexer) (depth : Nat) (woven : List Token) : Prop where
  indent : l.indent = -1
  outer : l.outer = []
  depth : l.depth = depth
  count : l.count = l.tokens.length
  marked : ∀ m ∈ l.marks, m.token < l.count
  woven : weave l.marks 0 l.tokens.reverse = woven

/-- Two lexers hold the same tokens. -/
structure Alike (l l' : Lexer) : Prop where
  indent : l'.indent = l.indent
  outer : l'.outer = l.outer
  depth : l'.depth = l.depth
  tokens : l'.tokens = l.tokens
  count : l'.count = l.count
  marks : l'.marks = l.marks

/-- One lexer stands behind another, with no token between them. -/
structure Ahead (l l' : Lexer) : Prop extends Alike l l' where
  keyAllowed : l.keyAllowed = true → l'.keyAllowed = true
  starts : ∀ s ∈ l'.starts, s ∈ l.starts

/-- One lexer holds a token behind those of another. -/
structure Pushed (l l' : Lexer) (t : Token) : Prop where
  indent : l'.indent = l.indent
  outer : l'.outer = l.outer
  tokens : l'.tokens = t :: l.tokens
  count : l'.count = l.count + 1
  marks : l'.marks = l.marks

theorem Alike.trans {m : Lexer} (h : l.Alike l') (h' : l'.Alike m) : l.Alike m where
  indent := h'.indent.trans h.indent
  outer := h'.outer.trans h.outer
  depth := h'.depth.trans h.depth
  tokens := h'.tokens.trans h.tokens
  count := h'.count.trans h.count
  marks := h'.marks.trans h.marks

theorem Ahead.trans {m : Lexer} (h : l.Ahead l') (h' : l'.Ahead m) : l.Ahead m where
  toAlike := h.toAlike.trans h'.toAlike
  keyAllowed allowed := h'.keyAllowed (h.keyAllowed allowed)
  starts s mem := h.starts s (h'.starts s mem)

theorem Has.alike (h : l.Has depth woven) (same : l.Alike l') : l'.Has depth woven where
  indent := same.indent.trans h.indent
  outer := same.outer.trans h.outer
  depth := same.depth.trans h.depth
  count := by rw [same.count, same.tokens, h.count]
  marked := by rw [same.marks, same.count]; exact h.marked
  woven := by rw [same.marks, same.tokens, h.woven]

/-- A token is put behind those that are held. -/
theorem Has.push {t : Token} {inside : Nat} (h : l.Has depth woven) (pushed : l.Pushed l' t)
    (depth : l'.depth = inside) : l'.Has inside (woven ++ [t]) where
  indent := pushed.indent.trans h.indent
  outer := pushed.outer.trans h.outer
  depth := depth
  count := by rw [pushed.count, pushed.tokens, List.length_cons, h.count]
  marked m mem := by
    rw [pushed.count]
    exact Nat.lt_succ_of_lt (h.marked m (pushed.marks ▸ mem))
  woven := by
    rw [pushed.marks, pushed.tokens, List.reverse_cons, weave_append, h.woven, List.length_reverse,
      Nat.zero_add, ← h.count, weave_singleton h.marked]

/-! ## To the next token -/

/-- The characters that tokens of JSON start with. -/
def tokenStarts : List Char := ['"', '[', ']', '\x7b', '\x7d', ',', ':'] ++ plainStarts

/-- The code points are none, or a token comes first. -/
def StartsToken (cs : List Code) : Prop := ∀ x ∈ cs.head?, ∃ ch ∈ tokenStarts, x = .char ch

theorem tokenStarts_plain {ch : Char} (h : ch ∈ tokenStarts) :
    ch ≠ ' ' ∧ isBreak ch = false ∧ ch ≠ '#' ∧ ch ≠ '\ufeff' ∧ ch ≠ '\r' := by
  have known : tokenStarts.all (fun ch => ch != ' ' && !isBreak ch && ch != '#' && ch != '\ufeff' &&
      ch != '\r') = true := by decide
  simpa [and_assoc] using List.all_eq_true.mp known ch h

theorem StartsToken.head {chars : List Char} (h : StartsToken (chars.map .char)) :
    ∀ ch ∈ (plainBreaksOf chars).head?, ch ∈ tokenStarts := by
  cases chars with
  | nil => simp [plainBreaksOf]
  | cons ch chars =>
    obtain ⟨ch', mem, same⟩ := h (.char ch) rfl
    obtain rfl := Code.char.inj same
    rw [plainBreaksOf_cons (tokenStarts_plain mem).2.2.2.2]
    rintro _ ⟨⟩
    exact mem

theorem skipComment_of_not {c : Cursor} (h : c.next? ≠ some '#') : c.skipComment = c := by
  rw [Cursor.skipComment, if_neg]
  simpa [Cursor.isAt] using h

/-- Behind spaces the token is next, or a tab, or a line feed with blanks behind it. -/
theorem skipSpaces_nears {c : Cursor} (near : c.Nears cs) (token : StartsToken cs) :
    (c.skipSpaces.Shows cs ∧ ∀ ch ∈ c.skipSpaces.next?, ch ∈ tokenStarts) ∨
      c.skipSpaces.next? = some '\t' ∨
      ∃ r, c.skipSpaces.rest = '\n' :: r ∧ c.skipSpaces.advance.Nears cs ∧
        r.length < c.rest.length := by
  obtain ⟨blanks, chars, rfl, rest, blank⟩ := near
  have skipped : c.skipSpaces.rest = c.rest.dropWhile (· == ' ') := Cursor.rest_skip _ _
  rw [rest, List.dropWhile_append] at skipped
  cases behind : blanks.dropWhile (· == ' ') with
  | nil =>
    have stays : (plainBreaksOf chars).dropWhile (· == ' ') = plainBreaksOf chars := by
      cases same : plainBreaksOf chars with
      | nil => rfl
      | cons ch r =>
        have mem := token.head ch (by rw [same]; rfl)
        exact List.dropWhile_cons_of_neg (by simpa using (tokenStarts_plain mem).1)
    rw [behind, if_pos List.isEmpty_nil, stays] at skipped
    exact .inl ⟨⟨chars, rfl, skipped⟩, by rw [Cursor.next?, skipped]; exact token.head⟩
  | cons b more =>
    rw [behind, if_neg (by simp)] at skipped
    have no_space : b ≠ ' ' := by
      have first := List.head?_dropWhile_not (· == ' ') blanks
      rw [behind] at first
      simpa using first
    have blank' : ∀ ch ∈ b :: more, isJsonBlank ch = true :=
      fun ch mem => blank ch ((List.dropWhile_sublist _).subset (behind ▸ mem))
    obtain ⟨json, others⟩ := List.forall_mem_cons.mp blank'
    simp only [isJsonBlank, Bool.or_eq_true, beq_iff_eq] at json
    obtain (space | rfl) | rfl := json
    · exact absurd space no_space
    · exact .inr (.inl (by rw [Cursor.next?, skipped]; rfl))
    · have left : c.skipSpaces.advance.rest = more ++ plainBreaksOf chars := by
        rw [Cursor.rest_advance, skipped]
        rfl
      have passed := (List.dropWhile_sublist (· == ' ') (l := blanks)).length_le
      rw [behind, List.length_cons] at passed
      refine .inr (.inr ⟨more ++ _, skipped, ⟨more, chars, rfl, left, others⟩, ?_⟩)
      rw [rest, List.length_append, List.length_append]
      omega

theorem ahead_of_cursor (l : Lexer) (c : Cursor) : l.Ahead { l with cursor := c } :=
  ⟨⟨rfl, rfl, rfl, rfl, rfl, rfl⟩, id, fun _ => id⟩

/-- Where neither a comment nor a line break is behind spaces, only they are passed. -/
theorem toNextFrom_of_not {fuel : Nat} (no_comment : l.cursor.skipSpaces.next? ≠ some '#')
    (no_break : ∀ ch ∈ l.cursor.skipSpaces.next?, isBreak ch = false) :
    toNextFrom (fuel + 1) l = { l with cursor := l.cursor.skipSpaces } := by
  rw [toNextFrom, skipComment_of_not no_comment, if_neg]
  intro line
  obtain ⟨ch, next, line⟩ := (Option.any_eq_true ..).mp line
  rw [no_break ch next] at line
  cases line

/-- A line feed is passed, and the blanks behind it as far as there is fuel. -/
theorem toNextFrom_lineFeed {fuel : Nat} {r : List Char}
    (line : l.cursor.skipSpaces.rest = '\n' :: r) :
    toNextFrom (fuel + 1) l = toNextFrom fuel { l with
      cursor := l.cursor.skipSpaces.advance, keyAllowed := l.inBlock || l.keyAllowed } := by
  have next : l.cursor.skipSpaces.next? = some '\n' := by rw [Cursor.next?, line]; rfl
  rw [toNextFrom, skipComment_of_not (by rw [next]; decide), if_pos (by rw [next]; rfl),
    Cursor.rest_lineBreak_of_lineFeed line]

/-- Behind blanks the token is next, or a tab, which starts none. -/
theorem toNextFrom_nears {fuel : Nat} (near : l.cursor.Nears cs) (token : StartsToken cs)
    (fits : l.cursor.rest.length < fuel) :
    l.Ahead (toNextFrom fuel l) ∧
      ((toNextFrom fuel l).cursor.Shows cs ∨ (toNextFrom fuel l).cursor.next? = some '\t') := by
  induction fuel generalizing l with
  | zero => exact absurd fits (Nat.not_lt_zero _)
  | succ fuel ih =>
    rcases skipSpaces_nears near token with ⟨shows, head⟩ | tab | ⟨r, line, near', shorter⟩
    · have plain (ch : Char) (next : ch ∈ l.cursor.skipSpaces.next?) :=
        tokenStarts_plain (head ch next)
      rw [toNextFrom_of_not (fun comment => (plain '#' comment).2.2.1 rfl)
        fun ch next => (plain ch next).2.1]
      exact ⟨ahead_of_cursor l _, .inl shows⟩
    · rw [toNextFrom_of_not (by rw [tab]; decide) (by rw [tab]; rintro _ ⟨⟩; decide)]
      exact ⟨ahead_of_cursor l _, .inr tab⟩
    · rw [toNextFrom_lineFeed line]
      have left : l.cursor.skipSpaces.advance.rest = r := by rw [Cursor.rest_advance, line]; rfl
      obtain ⟨ahead, found⟩ := ih
        (l := { l with
          cursor := l.cursor.skipSpaces.advance, keyAllowed := l.inBlock || l.keyAllowed })
        near' (by rw [left]; omega)
      refine ⟨Ahead.trans ?_ ahead, found⟩
      exact ⟨⟨rfl, rfl, rfl, rfl, rfl, rfl⟩, fun allowed => by simp [allowed], fun _ => id⟩

theorem toNext_nears (near : l.cursor.Nears cs) (token : StartsToken cs) :
    l.Ahead l.toNext ∧ (l.toNext.cursor.Shows cs ∨ l.toNext.cursor.next? = some '\t') := by
  have no_mark : l.cursor.isAt '\ufeff' = false := by
    obtain ⟨blanks, chars, rfl, rest, blank⟩ := near
    refine beq_false_of_ne fun mark => ?_
    rw [Cursor.next?, rest] at mark
    cases blanks with
    | nil => exact (tokenStarts_plain (token.head _ mark)).2.2.2.1 rfl
    | cons b blanks =>
      obtain rfl := Option.some.inj mark
      exact absurd (blank _ (List.mem_cons_self ..)) (by decide)
  have here : l.toNext = toNextFrom (l.cursor.rest.length + 1) l := by
    rw [toNext, no_mark, Bool.and_false, if_neg Bool.false_ne_true]
  rw [here]
  exact toNextFrom_nears near token (Nat.lt_succ_self _)

/-- Behind a byte order mark at the very start the token is next, too. -/
theorem toNext_mark {text : List Char} (shows : Cursor.Shows { rest := text } cs)
    (token : StartsToken (skipSpace cs)) (l : Lexer)
    (start : l.cursor = { rest := '\ufeff' :: text }) :
    l.Ahead l.toNext ∧
      (l.toNext.cursor.Shows (skipSpace cs) ∨ l.toNext.cursor.next? = some '\t') := by
  have behind : l.cursor.advance.rest = text := by rw [Cursor.rest_advance, start]; rfl
  have here : l.toNext = toNextFrom (l.cursor.advance.rest.length + 1)
      { l with cursor := l.cursor.advance } := by
    rw [toNext, if_pos (by rw [start]; rfl)]
  obtain ⟨ahead, found⟩ := toNextFrom_nears (l := { l with cursor := l.cursor.advance })
    (shows.nears.of_rest behind) token (Nat.lt_succ_self _)
  rw [here]
  exact ⟨(ahead_of_cursor l _).trans ahead, found⟩

/-! ## The next token -/

/-- Takes the token that is at the cursor. -/
def takeHere (l : Lexer) : Result Lexer :=
  match l.cursor.next? with
  | none => l.endStream
  | some ch => l.takeFrom ch

theorem dropStale_yields (l : Lexer) :
    l.dropStale.Yields fun l' => l.Ahead l' ∧ l'.cursor = l.cursor := by
  unfold dropStale
  split
  · trivial
  · exact ⟨⟨⟨rfl, rfl, rfl, rfl, rfl, rfl⟩, id, fun s mem => (List.mem_filter.mp mem).1⟩, rfl⟩

theorem Has.unwind_eq (h : l.Has depth woven) (column : Nat) : l.unwind column = l := by
  unfold unwind
  split
  · rw [h.outer, h.indent, unwindFrom, if_neg (by omega)]
  · rfl

theorem isMark_of_ne {c : Cursor} {ch x : Char} (next : c.next? = some x) (other : x ≠ ch) :
    c.isMark ch = false := by
  obtain ⟨r, rest⟩ := List.head?_eq_some_iff.mp next
  unfold Cursor.isMark
  split
  · rename_i same
    rw [rest] at same
    obtain ⟨rfl, -⟩ := List.cons.inj same
    simp [other]
  · rfl

/-- A tab starts no token. -/
theorem takeFrom_tab (next : l.cursor.next? = some '\t') : l.takeFrom '\t' = noToken "token" := by
  simp [takeFrom, isMark_of_ne next, startsPlain]

/-- The next token is taken from its first character on, if the text is not malformed. -/
theorem takeNext_yields {P : Lexer → Prop} (has : l.Has depth woven) (ahead : l.Ahead l.toNext)
    (found : l.toNext.cursor.Shows cs ∨ l.toNext.cursor.next? = some '\t')
    (take : ∀ l', l.Ahead l' → l'.cursor.Shows cs → l'.takeHere.Yields P) :
    l.takeNext.Yields P := by
  refine (dropStale_yields l.toNext).bind fun l' fresh => ?_
  have ahead' := ahead.trans fresh.1
  show Result.Yields (takeHere (l'.unwind l'.cursor.column)) P
  rw [(has.alike ahead'.toAlike).unwind_eq]
  rcases found with shows | tab
  · exact take l' ahead' (shows.of_rest (congrArg Cursor.rest fresh.2))
  · rw [← fresh.2] at tab
    rw [takeHere, tab]
    dsimp only
    rw [takeFrom_tab tab]
    trivial

/-! ## Runs -/

/-- A run from here comes by a lexer of which `P` holds, unless the text is malformed. -/
def Reaches (l : Lexer) (P : Lexer → Prop) : Prop :=
  ∀ fuel last, run fuel l = .ok last → ∃ fuel' next, P next ∧ run fuel' next = .ok last

theorem Reaches.refl {P : Lexer → Prop} (h : P l) : l.Reaches P :=
  fun fuel _ done => ⟨fuel, l, h, done⟩

theorem Reaches.trans {P Q : Lexer → Prop} (h : l.Reaches P) (next : ∀ l', P l' → l'.Reaches Q) :
    l.Reaches Q := by
  intro fuel last done
  obtain ⟨fuel', l', holds, done'⟩ := h fuel last done
  exact next l' holds fuel' last done'

/-- A run takes the next token. -/
theorem reaches_of_takeNext {P : Lexer → Prop}
    (h : l.takeNext.Yields fun next => P next ∧ next.tokens.head? ≠ some .streamEnd) :
    l.Reaches P := by
  intro fuel last done
  cases fuel with
  | zero => cases done
  | succ fuel =>
    rw [run] at done
    cases taken : l.takeNext with
    | ok next =>
      obtain ⟨holds, more⟩ := h.of_ok taken
      rw [taken] at done
      dsimp only at done
      rw [if_neg more] at done
      exact ⟨fuel, next, holds, done⟩
    | error e =>
      rw [taken] at h done
      cases e with
      | malformed f => cases done
      | value f => exact h.elim

/-! ## Tokens one by one -/

/-- What a lexer holds, and what is left behind blanks. -/
structure At (l : Lexer) (depth : Nat) (woven : List Token) (cs : List Code) : Prop where
  has : l.Has depth woven
  near : l.cursor.Nears cs

theorem dropStart_yields (l : Lexer) :
    l.dropStart.Yields fun l' => l.Alike l' ∧ l'.cursor = l.cursor := by
  unfold dropStart
  split
  · trivial
  · exact ⟨⟨rfl, rfl, rfl, rfl, rfl, rfl⟩, rfl⟩

/-- Where a key may start, its place is kept at the depth. -/
theorem saveStart_yields (l : Lexer) :
    l.saveStart.Yields fun l' => l.Alike l' ∧ l'.cursor = l.cursor ∧
      (l.keyAllowed = true → ∀ s ∈ l'.starts, s.1 = l.depth → s.2.token = l.count) := by
  unfold saveStart
  split
  · unfold dropStart
    dsimp only
    split
    · trivial
    · refine ⟨⟨rfl, rfl, rfl, rfl, rfl, rfl⟩, rfl, fun _ s mem same => ?_⟩
      rcases List.mem_cons.mp mem with rfl | mem
      · rfl
      · have other := (List.mem_filter.mp mem).2
        simp [same] at other
  · rename_i not_allowed
    exact ⟨⟨rfl, rfl, rfl, rfl, rfl, rfl⟩, rfl, fun allowed => absurd allowed not_allowed⟩

theorem next_of_shows {ch : Char} (shows : l.cursor.Shows (.char ch :: cs))
    (mem : ch ∈ tokenStarts) :
    l.cursor.next? = some ch ∧ l.takeHere = l.takeFrom ch := by
  have next : l.cursor.next? = some ch := by
    rw [Cursor.next?, (shows.cons (tokenStarts_plain mem).2.2.2.2).1]
    rfl
  exact ⟨next, by rw [takeHere, next]⟩

/-- What is left behind a token of one character. -/
theorem nears_take {ch : Char} (shows : l.cursor.Shows (.char ch :: cs)) (mem : ch ∈ tokenStarts)
    (t : Token) : (l.take 1 t).cursor.Nears (skipSpace cs) :=
  (shows.cons (tokenStarts_plain mem).2.2.2.2).2.nears

/-- The brackets that open, with their tokens. -/
inductive Opens : Char → Token → Prop
  | list : Opens '[' .flowSequenceStart
  | map : Opens '\x7b' .flowMappingStart

/-- The brackets that close, with their tokens. -/
inductive Closes : Char → Token → Prop
  | list : Closes ']' .flowSequenceEnd
  | map : Closes '\x7d' .flowMappingEnd

theorem open_yields {ch : Char} {t : Token} (opens : Opens ch t) (has : l.Has depth woven)
    (shows : l.cursor.Shows (.char ch :: cs)) :
    l.takeHere.Yields fun next => (next.At (depth + 1) (woven ++ [t]) (skipSpace cs) ∧
      next.keyAllowed = true) ∧ next.tokens.head? ≠ some .streamEnd := by
  have mem : ch ∈ tokenStarts := by cases opens <;> decide
  obtain ⟨next, here⟩ := next_of_shows shows mem
  have taken : l.takeFrom ch = l.openFlow t := by
    cases opens <;> simp [takeFrom, isMark_of_ne next]
  rw [here, taken]
  refine (saveStart_yields l).bind fun l' same => ?_
  have near := nears_take (shows.of_rest (congrArg Cursor.rest same.2.1)) mem t
  refine ⟨⟨⟨(has.alike same.1).push ⟨rfl, rfl, rfl, rfl, rfl⟩ ?_, near⟩, rfl⟩, ?_⟩
  · exact congrArg (· + 1) (same.1.depth.trans has.depth)
  · show some t ≠ _
    cases opens <;> decide

theorem close_yields {ch : Char} {t : Token} (closes : Closes ch t) (has : l.Has (depth + 1) woven)
    (shows : l.cursor.Shows (.char ch :: cs)) :
    l.takeHere.Yields fun next => next.At depth (woven ++ [t]) (skipSpace cs) ∧
      next.tokens.head? ≠ some .streamEnd := by
  have mem : ch ∈ tokenStarts := by cases closes <;> decide
  obtain ⟨next, here⟩ := next_of_shows shows mem
  have taken : l.takeFrom ch = l.closeFlow t := by
    cases closes <;> simp [takeFrom, isMark_of_ne next]
  rw [here, taken]
  refine (dropStart_yields l).bind fun l' same => ?_
  have near := nears_take (shows.of_rest (congrArg Cursor.rest same.2)) mem t
  have inside : l'.depth = depth + 1 := same.1.depth.trans has.depth
  rw [if_neg (by simp [inBlock, inside])]
  refine ⟨⟨(has.alike same.1).push ⟨rfl, rfl, rfl, rfl, rfl⟩ ?_, near⟩, ?_⟩
  · show l'.depth - 1 = depth
    rw [inside, Nat.add_sub_cancel]
  · show some t ≠ _
    cases closes <;> decide

theorem entry_yields (has : l.Has (depth + 1) woven) (shows : l.cursor.Shows (.char ',' :: cs)) :
    l.takeHere.Yields fun next => (next.At (depth + 1) (woven ++ [.flowEntry]) (skipSpace cs) ∧
      next.keyAllowed = true) ∧ next.tokens.head? ≠ some .streamEnd := by
  obtain ⟨next, here⟩ := next_of_shows shows (by decide)
  have taken : l.takeFrom ',' = l.takeFlowEntry := by simp [takeFrom, isMark_of_ne next]
  rw [here, taken]
  refine (dropStart_yields l).bind fun l' same => ?_
  have near := nears_take (shows.of_rest (congrArg Cursor.rest same.2)) (by decide) .flowEntry
  exact ⟨⟨⟨(has.alike same.1).push ⟨rfl, rfl, rfl, rfl, rfl⟩ (same.1.depth.trans has.depth), near⟩,
    rfl⟩, by simp [take, push]⟩

/-- A string is one token. Where a key may start, it may be one. -/
theorem string_yields {r : List Code} {t : Text} (body : Json.string r = .ok (t, rest))
    (shows : l.cursor.Shows (.char '"' :: r)) :
    l.takeHere.Yields fun next => ∃ u : Text, ((∀ x ∈ t.codes, Visible x) → u = t) ∧
      l.Pushed next (.scalar false u) ∧ next.depth = l.depth ∧ next.cursor.Shows rest ∧
      (l.keyAllowed = true → ∀ s ∈ next.starts, s.1 = l.depth → s.2.token = l.count) := by
  obtain ⟨next, here⟩ := next_of_shows shows (by decide)
  have taken : l.takeFrom '"' = l.takeQuoted .double := by
    simp [takeFrom, isMark_of_ne next]
  rw [here, taken]
  refine (saveStart_yields l).bind fun l' same => ?_
  have scalar := quotedScalar_yields (shows.of_rest (congrArg Cursor.rest same.2.1)) body
  refine (scalar.bind (R := fun r : Token × Cursor =>
    ∃ u : Text, r.1 = .scalar false u ∧ r.2.Shows rest ∧ ((∀ x ∈ t.codes, Visible x) → u = t))
    fun u read => Result.Yields.ok ⟨u.1, rfl, read⟩).bind ?_
  rintro ⟨_, c⟩ ⟨u, rfl, read, visible⟩
  exact ⟨u, visible,
    ⟨same.1.indent, same.1.outer, congrArg _ same.1.tokens, congrArg (· + 1) same.1.count,
      same.1.marks⟩, same.1.depth, read, same.2.2⟩

/-- A word or a number is taken as a plain scalar. -/
theorem takeFrom_plain {ch : Char} (next : l.cursor.next? = some ch) (start : ch ∈ plainStarts)
    (inside : l.inBlock = false) (signed : ch = '-' → ∃ second, l.cursor.at? 1 = some second ∧
      second ≠ '-' ∧ blankOrEnd (some second) = false) : l.takeFrom ch = l.takePlain := by
  by_cases sign : ch = '-'
  · subst sign
    obtain ⟨second, at_second, no_mark, no_blank⟩ := signed rfl
    have no_bound : l.cursor.isMark '-' = false := by
      obtain ⟨r, rest⟩ := List.head?_eq_some_iff.mp next
      rw [Cursor.at?, rest, List.getElem?_cons_succ, ← List.head?_eq_getElem?] at at_second
      obtain ⟨r, rfl⟩ := List.head?_eq_some_iff.mp at_second
      unfold Cursor.isMark
      split
      · rename_i same
        rw [rest] at same
        obtain ⟨-, same⟩ := List.cons.inj same
        obtain ⟨rfl, -⟩ := List.cons.inj same
        simp [no_mark]
      · rfl
    simp [takeFrom, no_bound, isMark_of_ne next, at_second, no_blank, startsPlain]
  · have known : plainStarts.all (fun ch => ch == '-' || (ch != '%' && ch != '.' && ch != '[' &&
        ch != '\x7b' && ch != ']' && ch != '\x7d' && ch != ',' && ch != '?' && ch != ':' &&
        ch != '*' && ch != '&' && ch != '!' && ch != '\x27' && ch != '"' &&
        startsPlain true ch none)) = true := by decide
    have plain := List.all_eq_true.mp known ch start
    simp only [beq_eq_false_iff_ne.mpr sign, Bool.false_or, Bool.and_eq_true, bne_iff_ne] at plain
    have starts : startsPlain true ch (l.cursor.at? 1) = true := by
      have first := plain.2
      simp only [startsPlain, blankOrEnd, Option.all_none, Bool.not_true, Bool.false_and,
        Bool.or_false] at first
      rw [startsPlain, first, Bool.true_or]
    simp [takeFrom, isMark_of_ne next, inside, starts, sign, plain]

/-- A word or a number is one token. -/
theorem plain_yields {first : Char} {chars : List Char} (spelled : StartsPlain cs first chars rest)
    (ends : Ends (skipSpace rest)) (has : l.Has (depth + 1) woven) (shows : l.cursor.Shows cs) :
    l.takeHere.Yields fun next => ∃ u : Text,
      next.At (depth + 1) (woven ++ [.scalar true u]) (skipSpace rest) ∧
      next.tokens.head? ≠ some .streamEnd := by
  have inside : l.inBlock = false := by simp [inBlock, has.depth]
  have taken : l.takeHere = l.takePlain := by
    rw [spelled.spelled] at shows
    have plain : first ∈ tokenStarts := List.mem_append_right _ spelled.start
    obtain ⟨next, here⟩ := next_of_shows shows plain
    rw [here]
    refine takeFrom_plain next spelled.start inside fun sign => ?_
    obtain ⟨second, mem, no_sign⟩ := spelled.signed sign
    obtain ⟨others, rfl⟩ := List.head?_eq_some_iff.mp mem
    obtain ⟨blank, -, -, -, no_return⟩ :=
      plainChars_plain (spelled.plain second (List.mem_cons_self ..))
    obtain ⟨rest_eq, behind⟩ := shows.cons (tokenStarts_plain plain).2.2.2.2
    refine ⟨second, ?_, no_sign, blank⟩
    rw [Cursor.at?, rest_eq, List.getElem?_cons_succ, (behind.cons no_return).1]
    rfl
  rw [taken]
  refine (saveStart_yields l).bind fun l' same => ?_
  have inside : l'.inBlock = false := by simp [inBlock, same.1.depth.trans has.depth]
  rw [inside]
  have near : (plainScalar true (l'.indent + 1) l'.cursor).after.Nears (skipSpace rest) :=
    plainScalar_nears (shows.of_rest (congrArg Cursor.rest same.2.1)) spelled ends
  refine ⟨_, ⟨(has.alike same.1).push ⟨rfl, rfl, rfl, rfl, rfl⟩ ?_, near⟩, by simp [push]⟩
  exact same.1.depth.trans has.depth

/-! ## Keys -/

/-- What a lexer holds behind a scalar that may be a key. -/
structure HasKey (l : Lexer) (depth : Nat) (woven : List Token) (scalar : Token)
    (ts : List Token) : Prop where
  indent : l.indent = -1
  outer : l.outer = []
  depth : l.depth = depth
  tokens : l.tokens = scalar :: ts
  count : l.count = ts.length + 1
  marked : ∀ m ∈ l.marks, m.token < ts.length
  woven : weave l.marks 0 ts.reverse = woven
  starts : ∀ s ∈ l.starts, s.1 = l.depth → s.2.token = ts.length

theorem HasKey.has {scalar : Token} {ts : List Token} (h : l.HasKey depth woven scalar ts) :
    l.Has depth (woven ++ [scalar]) where
  indent := h.indent
  outer := h.outer
  depth := h.depth
  count := by rw [h.count, h.tokens, List.length_cons]
  marked m mem := by
    rw [h.count]
    exact Nat.lt_succ_of_lt (h.marked m mem)
  woven := by
    rw [h.tokens, List.reverse_cons, weave_append, h.woven, List.length_reverse, Nat.zero_add,
      weave_singleton h.marked]

theorem HasKey.ahead {scalar : Token} {ts : List Token} (h : l.HasKey depth woven scalar ts)
    (ahead : l.Ahead l') : l'.HasKey depth woven scalar ts where
  indent := ahead.indent.trans h.indent
  outer := ahead.outer.trans h.outer
  depth := ahead.depth.trans h.depth
  tokens := ahead.tokens.trans h.tokens
  count := ahead.count.trans h.count
  marked := by rw [ahead.marks]; exact h.marked
  woven := by rw [ahead.marks, h.woven]
  starts s mem same := h.starts s (ahead.starts s mem) (same.trans ahead.depth)

/-- The mark of a key and the colon behind it. -/
theorem HasKey.marked_has {scalar : Token} {ts : List Token} {allowed : Bool}
    {starts : List (Nat × KeyStart)} (h : l.HasKey depth woven scalar ts) :
    Has { l.take 1 .value with
      keyAllowed := allowed, starts := starts, marks := ⟨ts.length, false⟩ :: l.marks }
      depth (woven ++ [.key, scalar, .value]) where
  indent := h.indent
  outer := h.outer
  depth := h.depth
  count := by
    show l.count + 1 = (Token.value :: l.tokens).length
    rw [h.count, h.tokens, List.length_cons, List.length_cons]
  marked m mem := by
    show m.token < l.count + 1
    rw [h.count]
    rcases List.mem_cons.mp mem with rfl | mem
    · exact Nat.lt_add_of_pos_right (Nat.succ_pos 1)
    · have := h.marked m mem
      omega
  woven := by
    show weave (⟨ts.length, false⟩ :: l.marks) 0 (Token.value :: l.tokens).reverse = _
    have front : weave (⟨ts.length, false⟩ :: l.marks) 0 ts.reverse = woven := by
      rw [weave_of_le (by simp), h.woven]
    have marked : weave (⟨ts.length, false⟩ :: l.marks) ts.length [scalar] = [.key, scalar] := by
      simp [weave]
    have before : ∀ m ∈ (⟨ts.length, false⟩ :: l.marks : List KeyMark), m.token < ts.length + 1 :=
      List.forall_mem_cons.mpr
        ⟨Nat.lt_succ_self _, fun m mem => Nat.lt_succ_of_lt (h.marked m mem)⟩
    rw [h.tokens, List.reverse_cons, List.reverse_cons, weave_append, weave_append, front,
      List.length_append, List.length_reverse, List.length_singleton, Nat.zero_add, Nat.zero_add,
      marked, weave_singleton before]
    simp

theorem colon_yields {t : Text} {ts : List Token}
    (has : l.HasKey (depth + 1) woven (.scalar false t) ts)
    (shows : l.cursor.Shows (.char ':' :: cs)) :
    l.takeHere.Yields fun next => (∃ us, IsKey t us ∧
      next.At (depth + 1) (woven ++ us) (skipSpace cs)) ∧ next.tokens.head? ≠ some .streamEnd := by
  obtain ⟨next, here⟩ := next_of_shows shows (by decide)
  have inside : l.inBlock = false := by simp [inBlock, has.depth]
  have taken : l.takeFrom ':' = l.takeValue := by
    simp [takeFrom, isMark_of_ne next, inside]
  rw [here, taken, takeValue]
  split
  · rename_i s kept
    have place : s.token = ts.length :=
      has.starts _ (Entries.mem_of_lookup kept) rfl
    have keyed : l.takeKeyedValue s =
        { l.take 1 .value with
          keyAllowed := false
          starts := l.starts.filter fun s => s.1 != l.depth
          marks := ⟨s.token, false⟩ :: l.marks } := by
      have outside : (({ l with starts := l.starts.filter fun s => s.1 != l.depth } :
        Lexer).inBlock) = false := inside
      rw [takeKeyedValue, outside]
      rfl
    rw [keyed, place]
    refine ⟨⟨_, .marked t, ?_, nears_take shows (by decide) .value⟩, by simp [take, push]⟩
    exact has.marked_has
  · have bare : l.takeBareValue =
        l.dropStart >>= fun l => .ok { l.take 1 .value with keyAllowed := l.inBlock } := by
      rw [takeBareValue, inside]
      rfl
    rw [bare]
    refine (dropStart_yields l).bind fun l' same => ?_
    have near := nears_take (shows.of_rest (congrArg Cursor.rest same.2)) (by decide) .value
    have pushed : Has { l'.take 1 .value with keyAllowed := l'.inBlock } (depth + 1)
        (woven ++ [.scalar false t] ++ [.value]) :=
      (has.has.alike same.1).push ⟨rfl, rfl, rfl, rfl, rfl⟩ (same.1.depth.trans has.depth)
    rw [List.append_assoc] at pushed
    exact ⟨⟨_, .bare t, pushed, near⟩, by simp [take, push]⟩

end Lexer

end FieldProgram.Yaml

import FieldProgram.Proofs.Yaml.Lexer

/-!
# The tokens of a JSON text

Where YAML can read a JSON text, it finds the tokens of the same values in the same brackets. Texts
may come out differently, but not one that is visible throughout.

* `reaches_value`, `reaches_items`, `reaches_members`: a run takes the tokens of a value, of a list
  and of a mapping;
* `tokens_of_object`, `tokens_of_list`: all tokens of a text that is an object, with its keys, or a
  list.
-/

namespace FieldProgram.Yaml

open Json (skipSpace Spells SpellsItems SpellsMembers Visible)

/-- A text of JSON is read as another one, the same if it is visible throughout. -/
def ReadsAs (t u : Text) : Prop := (∀ x ∈ t.codes, Visible x) → u = t

namespace Lexer

variable {l : Lexer} {depth levels : Nat} {woven : List Token} {cs r rest : List Code} {ch : Char}

theorem startsToken_cons (h : ch ∈ tokenStarts) : StartsToken (.char ch :: cs) := by
  rintro _ ⟨⟩
  exact ⟨ch, h, rfl⟩

theorem ends_cons (h : isFlowMark ch = true) : Ends (.char ch :: cs) := by
  rintro _ ⟨⟩
  exact ⟨ch, rfl, h⟩

/-- A run takes the token that is next. -/
theorem At.reaches {P : Lexer → Prop} (here : l.At depth woven cs) (token : StartsToken cs)
    (take : ∀ l', l.Ahead l' → l'.Has depth woven → l'.cursor.Shows cs →
      l'.takeHere.Yields fun next => P next ∧ next.tokens.head? ≠ some .streamEnd) :
    l.Reaches P := by
  obtain ⟨ahead, found⟩ := toNext_nears here.near token
  exact reaches_of_takeNext <| takeNext_yields here.has ahead found fun l' ahead shows =>
    take l' ahead (here.has.alike ahead.toAlike) shows

theorem reaches_open {t : Token} (opens : Opens ch t) (here : l.At depth woven (.char ch :: cs)) :
    l.Reaches fun next => next.At (depth + 1) (woven ++ [t]) (skipSpace cs) ∧
      next.keyAllowed = true :=
  here.reaches (startsToken_cons (by cases opens <;> decide)) fun _ _ => open_yields opens

theorem reaches_close {t : Token} (closes : Closes ch t)
    (here : l.At (depth + 1) woven (.char ch :: cs)) :
    l.Reaches fun next => next.At depth (woven ++ [t]) (skipSpace cs) :=
  here.reaches (startsToken_cons (by cases closes <;> decide)) fun _ _ => close_yields closes

theorem reaches_entry (here : l.At (depth + 1) woven (.char ',' :: cs)) :
    l.Reaches fun next => next.At (depth + 1) (woven ++ [.flowEntry]) (skipSpace cs) ∧
      next.keyAllowed = true :=
  here.reaches (startsToken_cons (by decide)) fun _ _ => entry_yields

/-- A run takes a key with its colon. -/
theorem reaches_key {t : Text} (name : Json.memberKey cs = .ok (t, rest))
    (here : l.At (depth + 1) woven cs) (allowed : l.keyAllowed = true) :
    l.Reaches fun next => ∃ u us, ReadsAs t u ∧ IsKey u us ∧
      next.At (depth + 1) (woven ++ us) rest := by
  obtain ⟨body, after, behind, rfl, string, colon, rfl⟩ := Json.memberKey_eq_ok_iff.mp name
  have scalar : l.Reaches fun next => ∃ u ts, ReadsAs t u ∧
      next.HasKey (depth + 1) woven (.scalar false u) ts ∧ next.cursor.Shows after := by
    refine here.reaches (startsToken_cons (by decide)) fun l' ahead has shows => ?_
    refine (string_yields string shows).imp ?_
    rintro next ⟨u, visible, pushed, inside, left, starts⟩
    refine ⟨⟨u, l'.tokens, visible, ⟨pushed.indent.trans has.indent, pushed.outer.trans has.outer,
      inside.trans has.depth, pushed.tokens, ?_, ?_, ?_, ?_⟩, left⟩, by simp [pushed.tokens]⟩
    · rw [pushed.count, has.count]
    · rw [pushed.marks, ← has.count]
      exact has.marked
    · rw [pushed.marks, has.woven]
    · rw [inside, ← has.count]
      exact starts (ahead.keyAllowed allowed)
  refine scalar.trans ?_
  rintro l' ⟨u, ts, visible, has, shows⟩
  have near := shows.nears
  rw [colon] at near
  obtain ⟨ahead, found⟩ := toNext_nears near (startsToken_cons (by decide))
  refine reaches_of_takeNext <| takeNext_yields has.has ahead found fun l'' ahead shows => ?_
  refine (colon_yields (has.ahead ahead) shows).imp ?_
  rintro next ⟨⟨us, key, here⟩, more⟩
  exact ⟨⟨u, us, visible, key, here⟩, more⟩

theorem startsToken_of_value {v : Document} (h : Spells levels cs v rest) : StartsToken cs := by
  obtain ⟨ch, mem, r, rfl⟩ := h.starts
  refine startsToken_cons ?_
  have known : Json.valueStarts.all tokenStarts.contains = true := by decide
  simpa using List.all_eq_true.mp known ch mem

mutual

/-- A run takes the tokens of a value inside brackets. -/
theorem reaches_value {l : Lexer} {levels depth : Nat} {woven : List Token} {cs rest : List Code}
    {v : Document} : Spells levels cs v rest → Ends (skipSpace rest) →
      l.At (depth + 1) woven cs → l.Reaches fun next => ∃ ts, IsItem ts ∧
        next.At (depth + 1) (woven ++ ts) (skipSpace rest)
  | .str body, _, here => by
    refine here.reaches (startsToken_cons (by decide)) fun l' _ has shows => ?_
    refine (string_yields body shows).imp ?_
    rintro next ⟨u, -, pushed, inside, left, -⟩
    exact ⟨⟨_, .scalar false u, has.push pushed (inside.trans has.depth), left.nears⟩,
      by simp [pushed.tokens]⟩
  | .emptyList close, _, here => by
    refine (reaches_open .list here).trans ?_
    rintro l' ⟨here', -⟩
    rw [close] at here'
    refine (reaches_close .list here').trans fun next done => .refl ⟨_, .emptyList, ?_⟩
    rwa [List.append_assoc] at done
  | .list items, _, here => by
    refine (reaches_open .list here).trans ?_
    rintro l' ⟨here', -⟩
    refine (reaches_items items here').trans ?_
    rintro next ⟨ts, tokens, done⟩
    rw [List.append_assoc] at done
    exact .refl ⟨_, .list tokens, done⟩
  | .emptyMap close, _, here => by
    refine (reaches_open .map here).trans ?_
    rintro l' ⟨here', -⟩
    rw [close] at here'
    refine (reaches_close .map here').trans fun next done => .refl ⟨_, .emptyMap, ?_⟩
    rwa [List.append_assoc] at done
  | .map members, _, here => by
    refine (reaches_open .map here).trans ?_
    rintro l' ⟨here', allowed⟩
    refine (reaches_members members here' allowed).trans ?_
    rintro next ⟨keys, ts, -, tokens, done⟩
    rw [List.append_assoc] at done
    exact .refl ⟨_, .map tokens, done⟩
  | .plain word, ends, here => by
    have spelled : Spells levels cs v rest := .plain word
    obtain ⟨first, chars, plain⟩ := Json.startsPlain_of_plainValue word
    refine here.reaches (startsToken_of_value spelled) fun l' _ has shows => ?_
    refine (plain_yields plain ends has shows).imp ?_
    rintro next ⟨u, done, more⟩
    exact ⟨⟨_, .scalar true u, done⟩, more⟩

/-- A run takes the tokens of the items of a list and of its closing bracket. -/
theorem reaches_items {l : Lexer} {levels depth : Nat} {woven : List Token} {cs rest : List Code}
    {xs : List Document} : SpellsItems levels cs xs rest → l.At (depth + 1) woven cs →
      l.Reaches fun next => ∃ ts, IsItems ts ∧ next.At depth (woven ++ ts) (skipSpace rest)
  | .last item close, here => by
    refine (reaches_value item (by rw [close]; exact ends_cons rfl) here).trans ?_
    rintro l' ⟨ts, tokens, here'⟩
    rw [close] at here'
    refine (reaches_close .list here').trans fun next done => .refl ⟨_, .last tokens, ?_⟩
    rwa [List.append_assoc] at done
  | .more item comma items, here => by
    refine (reaches_value item (by rw [comma]; exact ends_cons rfl) here).trans ?_
    rintro l' ⟨ts, tokens, here'⟩
    rw [comma] at here'
    refine (reaches_entry here').trans ?_
    rintro l'' ⟨here'', -⟩
    refine (reaches_items items here'').trans ?_
    rintro next ⟨us, others, done⟩
    refine .refl ⟨_, .more tokens others, ?_⟩
    simpa using done

/-- A run takes the tokens of the members of a mapping and of its closing bracket. -/
theorem reaches_members {l : Lexer} {levels depth : Nat} {woven : List Token} {cs rest : List Code}
    {ms : List (Text × Document)} : SpellsMembers levels cs ms rest →
      l.At (depth + 1) woven cs → l.keyAllowed = true →
        l.Reaches fun next => ∃ keys ts, List.Forall₂ ReadsAs (ms.map Prod.fst) keys ∧
          IsMembers keys ts ∧ next.At depth (woven ++ ts) (skipSpace rest)
  | .last name value close, here, allowed => by
    refine (reaches_key name here allowed).trans ?_
    rintro l' ⟨u, us, visible, key, here'⟩
    refine (reaches_value value (by rw [close]; exact ends_cons rfl) here').trans ?_
    rintro l'' ⟨ts, tokens, here''⟩
    rw [close] at here''
    refine (reaches_close .map here'').trans fun next done => .refl ?_
    refine ⟨[u], _, .cons visible .nil, .last key tokens, ?_⟩
    simpa using done
  | .more name value comma members, here, allowed => by
    refine (reaches_key name here allowed).trans ?_
    rintro l₁ ⟨u, us, visible, key, here₁⟩
    refine (reaches_value value (by rw [comma]; exact ends_cons rfl) here₁).trans ?_
    rintro l₂ ⟨ts, tokens, here₂⟩
    rw [comma] at here₂
    refine (reaches_entry here₂).trans ?_
    rintro l₃ ⟨here₃, allowed₃⟩
    refine (reaches_members members here₃ allowed₃).trans ?_
    rintro next ⟨keys, vs, others, tokens', done⟩
    refine .refl ⟨u :: keys, _, .cons visible others, .more key tokens tokens', ?_⟩
    simpa using done

end

/-! ## Whole texts -/

theorem end_yields (has : l.Has 0 woven) (shows : l.cursor.Shows []) :
    l.takeHere.Yields fun next => next.Has 0 (woven ++ [.streamEnd]) ∧
      next.tokens.head? = some .streamEnd := by
  have no_rest : l.cursor.next? = none := by
    obtain ⟨chars, codes, rest⟩ := shows
    obtain rfl := List.map_eq_nil_iff.mp codes.symm
    rw [Cursor.next?, rest]
    rfl
  have closed : l.unwind (-1) = l := by
    unfold unwind
    split
    · rw [has.outer, has.indent, unwindFrom, if_neg (Int.lt_irrefl _)]
    · rfl
  rw [takeHere, no_rest]
  dsimp only
  rw [endStream, closeAll, closed]
  refine Result.Yields.bind (P := fun l' => l.Alike l')
    ((dropStart_yields l).bind fun l' same => ?_) fun l' same => ?_
  · exact ⟨same.1.indent, same.1.outer, same.1.depth, same.1.tokens, same.1.count, same.1.marks⟩
  · exact ⟨(has.alike same).push ⟨rfl, rfl, rfl, rfl, rfl⟩ (same.depth.trans has.depth), rfl⟩

/-- A run ends where nothing is left but blanks. -/
theorem run_end {fuel : Nat} {last : Lexer} (here : l.At 0 woven [])
    (done : run fuel l = .ok last) : last.Has 0 (woven ++ [.streamEnd]) := by
  obtain ⟨ahead, found⟩ := toNext_nears here.near (by rintro x ⟨⟩)
  have taken := takeNext_yields here.has ahead found fun l' ahead shows =>
    end_yields (here.has.alike ahead.toAlike) shows
  cases fuel with
  | zero => cases done
  | succ fuel =>
    rw [run] at done
    cases next : l.takeNext with
    | ok last' =>
      obtain ⟨has, ended⟩ := taken.of_ok next
      rw [next] at done
      dsimp only at done
      rw [if_pos ended] at done
      obtain rfl := Except.ok.inj done
      exact has
    | error e =>
      rw [next] at taken done
      cases e with
      | malformed f => cases done
      | value f => exact taken.elim

end Lexer

/-- No word or number has parts. -/
theorem plainValue_bare {levels : Nat} {cs rest : List Code} {v : Document}
    (h : Json.plainValue levels cs = .ok (v, rest)) : (∀ xs, v ≠ .list xs) ∧ ∀ ms, v ≠ .map ms := by
  rcases Json.plainValue_cases h with ⟨w, word, -, rfl⟩ | ⟨n, -, value⟩
  · have named : ∀ w ∈ Json.words, (∀ xs, w.2 ≠ .list xs) ∧ ∀ ms, w.2 ≠ .map ms := by
      simp [Json.words]
    exact named w word
  · unfold Json.Number.value at value
    split at value
    · obtain ⟨m, -, same⟩ := Except.bind_eq_ok.mp value
      obtain rfl := Except.ok.inj same
      simp
    · obtain rfl := Except.ok.inj value
      simp

/-- The tokens of a text that starts with a bracket, with a byte order mark in front or not, where a
run takes those inside the bracket up to the end. -/
theorem tokens_of_open {P : List Token → Prop} {chars text : List Char} {ch : Char} {t : Token}
    {r : List Code} {ts : List Token} (opens : Lexer.Opens ch t)
    (starts : skipSpace (chars.map .char) = .char ch :: r)
    (inside : ∀ l : Lexer, l.At 1 [t] (skipSpace r) → l.keyAllowed = true →
      l.Reaches fun next => ∃ us, P us ∧ next.At 0 (t :: us) [])
    (marked : text = plainBreaksOf chars ∨ text = '\ufeff' :: plainBreaksOf chars)
    (read : tokens text = .ok ts) : ∃ us, P us ∧ ts = t :: us ++ [.streamEnd] := by
  obtain ⟨last, done, same⟩ : ∃ last, Lexer.run (text.length + 1) { cursor := { rest := text } } =
      .ok last ∧ weave last.marks 0 last.tokens.reverse = ts := by
    unfold tokens at read
    split at read
    · cases read
    · obtain ⟨last, done, same⟩ := Except.bind_eq_ok.mp read
      exact ⟨last, done, Except.ok.inj same⟩
  have shows : Cursor.Shows { rest := plainBreaksOf chars } (chars.map .char) := ⟨chars, rfl, rfl⟩
  have token : Lexer.StartsToken (skipSpace (chars.map .char)) := by
    rw [starts]
    exact Lexer.startsToken_cons (by cases opens <;> decide)
  have has : Lexer.Has { cursor := { rest := text } } 0 [] :=
    ⟨rfl, rfl, rfl, rfl, by simp, rfl⟩
  obtain ⟨ahead, found⟩ : Lexer.Ahead { cursor := { rest := text } }
      (Lexer.toNext { cursor := { rest := text } }) ∧
      ((Lexer.toNext { cursor := { rest := text } }).cursor.Shows (skipSpace (chars.map .char)) ∨
        (Lexer.toNext { cursor := { rest := text } }).cursor.next? = some '\t') := by
    rcases marked with rfl | rfl
    · exact Lexer.toNext_nears shows.nears token
    · exact Lexer.toNext_mark shows token _ rfl
  rw [starts] at found
  have opened := Lexer.reaches_of_takeNext <| Lexer.takeNext_yields has ahead found
    fun l' ahead shows => Lexer.open_yields opens (has.alike ahead.toAlike) shows
  have run := opened.trans fun l' here => inside l' here.1 here.2
  obtain ⟨fuel, next, ⟨us, parts, here⟩, done⟩ := run _ _ done
  exact ⟨us, parts, same.symm.trans (Lexer.run_end here done).woven⟩

variable {levels : Nat} {chars text : List Char} {ts : List Token}

/-- The tokens of an object of JSON that is not empty. -/
theorem tokens_of_object {ms : List (Text × Document)}
    (spelled : Json.SpellsText levels (chars.map .char) (.map ms)) (full : ms ≠ [])
    (marked : text = plainBreaksOf chars ∨ text = '\ufeff' :: plainBreaksOf chars)
    (read : tokens text = .ok ts) :
    ∃ keys us, List.Forall₂ ReadsAs (ms.map Prod.fst) keys ∧ IsMembers keys us ∧
      ts = .flowMappingStart :: us ++ [.streamEnd] := by
  obtain ⟨rest, value, no_rest⟩ := spelled
  generalize starts : skipSpace (chars.map .char) = cs at value
  cases value with
  | emptyMap close => exact absurd rfl full
  | plain word => exact absurd rfl ((plainValue_bare word).2 ms)
  | @map _ r _ _ members =>
    have inside (l : Lexer) (here : l.At 1 [.flowMappingStart] (skipSpace r))
        (allowed : l.keyAllowed = true) : l.Reaches fun next =>
          ∃ us, (∃ keys, List.Forall₂ ReadsAs (ms.map Prod.fst) keys ∧ IsMembers keys us) ∧
            next.At 0 (.flowMappingStart :: us) [] := by
      refine (Lexer.reaches_members members here allowed).trans ?_
      rintro next ⟨keys, us, visible, tokens, done⟩
      rw [no_rest] at done
      exact .refl ⟨us, ⟨keys, visible, tokens⟩, done⟩
    obtain ⟨us, ⟨keys, visible, tokens⟩, same⟩ := tokens_of_open .map starts inside marked read
    exact ⟨keys, us, visible, tokens, same⟩

/-- The tokens of a list of JSON that is not empty. -/
theorem tokens_of_list {xs : List Document}
    (spelled : Json.SpellsText levels (chars.map .char) (.list xs)) (full : xs ≠ [])
    (marked : text = plainBreaksOf chars ∨ text = '\ufeff' :: plainBreaksOf chars)
    (read : tokens text = .ok ts) :
    ∃ us, IsItems us ∧ ts = .flowSequenceStart :: us ++ [.streamEnd] := by
  obtain ⟨rest, value, no_rest⟩ := spelled
  generalize starts : skipSpace (chars.map .char) = cs at value
  cases value with
  | emptyList close => exact absurd rfl full
  | plain word => exact absurd rfl ((plainValue_bare word).1 xs)
  | list items =>
    refine tokens_of_open .list starts (fun l here _ => ?_) marked read
    refine (Lexer.reaches_items items here).trans ?_
    rintro next ⟨us, tokens, done⟩
    rw [no_rest] at done
    exact .refl ⟨us, tokens, done⟩

end FieldProgram.Yaml

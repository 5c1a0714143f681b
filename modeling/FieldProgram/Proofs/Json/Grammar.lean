import FieldProgram.Proofs.Json.Taken
import FieldProgram.Proofs.Numeral.Literal

/-!
# Trees of JSON texts

`SpellsText` says which tree a text has: a document whose mappings hold all members that are
written, also those whose keys are equal. What a policy makes of repeated keys is a function of the
tree alone, `KeyPolicy.settle`.

* `readMarked_eq_ok_iff`: reading gives exactly what the policy makes of the tree of the text;
* `SpellsText.stands`: a text with a tree has no control characters but blanks;
* `SpellsText.unique`: a text has one tree at most.
-/

namespace FieldProgram.Json

/-! ## Trees -/

mutual

/-- The code points start with a value, in which brackets nest at most `levels` deep, and go on with
the last argument. -/
inductive Spells : (levels : Nat) → List Code → Document → List Code → Prop
  | str {levels : Nat} {r rest : List Code} {s : Text} (body : string r = .ok (s, rest)) :
    Spells levels (.char '"' :: r) (.str s) rest
  | emptyList {levels : Nat} {r rest : List Code} (close : skipSpace r = .char ']' :: rest) :
    Spells (levels + 1) (.char '[' :: r) (.list []) rest
  | list {levels : Nat} {r rest : List Code} {xs : List Document}
    (items : SpellsItems levels (skipSpace r) xs rest) :
    Spells (levels + 1) (.char '[' :: r) (.list xs) rest
  | emptyMap {levels : Nat} {r rest : List Code} (close : skipSpace r = .char '\x7d' :: rest) :
    Spells (levels + 1) (.char '\x7b' :: r) (.map []) rest
  | map {levels : Nat} {r rest : List Code} {ms : List (Text × Document)}
    (members : SpellsMembers levels (skipSpace r) ms rest) :
    Spells (levels + 1) (.char '\x7b' :: r) (.map ms) rest
  | plain {levels : Nat} {cs rest : List Code} {v : Document}
    (word : plainValue levels cs = .ok (v, rest)) : Spells levels cs v rest

/-- The code points start with the items of a list and its closing bracket. -/
inductive SpellsItems : (levels : Nat) → List Code → List Document → List Code → Prop
  | last {levels : Nat} {cs after rest : List Code} {x : Document}
    (item : Spells levels cs x after) (close : skipSpace after = .char ']' :: rest) :
    SpellsItems levels cs [x] rest
  | more {levels : Nat} {cs after r rest : List Code} {x : Document} {xs : List Document}
    (item : Spells levels cs x after) (comma : skipSpace after = .char ',' :: r)
    (items : SpellsItems levels (skipSpace r) xs rest) : SpellsItems levels cs (x :: xs) rest

/-- The code points start with the members of a mapping and its closing bracket. -/
inductive SpellsMembers : (levels : Nat) → List Code → List (Text × Document) → List Code → Prop
  | last {levels : Nat} {cs r after rest : List Code} {key : Text} {v : Document}
    (name : memberKey cs = .ok (key, r)) (value : Spells levels r v after)
    (close : skipSpace after = .char '\x7d' :: rest) : SpellsMembers levels cs [(key, v)] rest
  | more {levels : Nat} {cs r after t rest : List Code} {key : Text} {v : Document}
    {ms : List (Text × Document)} (name : memberKey cs = .ok (key, r))
    (value : Spells levels r v after) (comma : skipSpace after = .char ',' :: t)
    (members : SpellsMembers levels (skipSpace t) ms rest) :
    SpellsMembers levels cs ((key, v) :: ms) rest

end

/-- The text is a value with blanks around it, in which brackets nest at most `levels` deep, and `d`
is its tree. -/
def SpellsText (levels : Nat) (text : List Code) (d : Document) : Prop :=
  ∃ rest, Spells levels (skipSpace text) d rest ∧ skipSpace rest = []

/-! ## What a policy makes of a tree -/

mutual

/-- The document that is left of a tree with `levels` of brackets when each mapping closes under the
policy. -/
def KeyPolicy.settle (policy : KeyPolicy) (levels : Nat) : Document → Except ReadError Document
  | .list xs => (policy.settleItems (levels - 1) xs).map .list
  | .map ms => policy.settleMembers (levels - 1) ms >>= policy.close (levels - 1)
  | d => .ok d

def KeyPolicy.settleItems (policy : KeyPolicy) (levels : Nat) :
    List Document → Except ReadError (List Document)
  | [] => .ok []
  | x :: xs => do
    let first ← policy.settle levels x
    let rest ← policy.settleItems levels xs
    return first :: rest

def KeyPolicy.settleMembers (policy : KeyPolicy) (levels : Nat) :
    List (Text × Document) → Except ReadError (List (Text × Document))
  | [] => .ok []
  | (key, v) :: ms => do
    let first ← policy.settle levels v
    let rest ← policy.settleMembers levels ms
    return (key, first) :: rest

end

theorem KeyPolicy.settleItems_cons_eq_ok {policy : KeyPolicy} {levels : Nat} {x : Document}
    {xs ds : List Document} :
    policy.settleItems levels (x :: xs) = .ok ds ↔ ∃ d ds', policy.settle levels x = .ok d ∧
      policy.settleItems levels xs = .ok ds' ∧ ds = d :: ds' := by
  rw [settleItems]
  simp only [Except.bind_eq_ok]
  constructor
  · rintro ⟨d, hd, ds', hds, ⟨⟩⟩
    exact ⟨d, ds', hd, hds, rfl⟩
  · rintro ⟨d, ds', hd, hds, rfl⟩
    exact ⟨d, hd, ds', hds, rfl⟩

theorem KeyPolicy.settleMembers_cons_eq_ok {policy : KeyPolicy} {levels : Nat} {key : Text}
    {v : Document} {ms ds : List (Text × Document)} :
    policy.settleMembers levels ((key, v) :: ms) = .ok ds ↔ ∃ d ds',
      policy.settle levels v = .ok d ∧ policy.settleMembers levels ms = .ok ds' ∧
        ds = (key, d) :: ds' := by
  rw [settleMembers]
  simp only [Except.bind_eq_ok]
  constructor
  · rintro ⟨d, hd, ds', hds, ⟨⟩⟩
    exact ⟨d, ds', hd, hds, rfl⟩
  · rintro ⟨d, ds', hd, hds, rfl⟩
    exact ⟨d, hd, ds', hds, rfl⟩

theorem settle_of_plainValue {policy : KeyPolicy} {levels : Nat} {cs rest : List Code}
    {v : Document} (h : plainValue levels cs = .ok (v, rest)) :
    policy.settle levels v = .ok v := by
  rcases plainValue_cases h with ⟨w, word, -, rfl⟩ | ⟨n, -, value⟩
  · have named : ∀ w ∈ words, policy.settle levels w.2 = .ok w.2 := by
      simp [words, KeyPolicy.settle]
    exact named w word
  · unfold Number.value at value
    split at value
    · obtain ⟨m, -, hm⟩ := Except.bind_eq_ok.mp value
      obtain rfl := Except.ok.inj hm
      rfl
    · obtain rfl := Except.ok.inj value
      rfl

/-! ## Reading follows the tree -/

mutual

theorem spells_of_value (policy : KeyPolicy) : (fuel levels : Nat) → (cs : List Code) →
    ∀ d rest, value policy fuel levels cs = .ok (d, rest) →
      ∃ tree, Spells levels cs tree rest ∧ policy.settle levels tree = .ok d
  | 0, _, _ => by
    intro d rest h
    cases h
  | fuel + 1, levels, cs => by
    intro d rest h
    unfold value at h
    split at h
    · obtain ⟨⟨s, after⟩, hs, h⟩ := Except.bind_eq_ok.mp h
      obtain ⟨rfl, rfl⟩ := Prod.mk.inj (Except.ok.inj h)
      exact ⟨_, .str (Except.mapError_eq_ok.mp hs), rfl⟩
    · split at h
      · cases h
      · split at h
        · rename_i close
          obtain ⟨rfl, rfl⟩ := Prod.mk.inj (Except.ok.inj h)
          exact ⟨_, .emptyList close, rfl⟩
        · obtain ⟨trees, ds, spelled, settled, rfl⟩ := spells_of_items policy fuel _ [] _ _ _ h
          exact ⟨_, .list spelled, Except.map_eq_ok.mpr ⟨ds, settled, rfl⟩⟩
    · split at h
      · cases h
      · split at h
        · rename_i close
          obtain ⟨v, hv, h⟩ := Except.bind_eq_ok.mp h
          obtain ⟨rfl, rfl⟩ := Prod.mk.inj (Except.ok.inj h)
          exact ⟨_, .emptyMap close, Except.bind_eq_ok.mpr ⟨[], rfl, hv⟩⟩
        · obtain ⟨trees, ds, spelled, settled, closed⟩ :=
            spells_of_members policy fuel _ [] _ _ _ h
          exact ⟨_, .map spelled, Except.bind_eq_ok.mpr ⟨ds, settled, closed⟩⟩
    · exact ⟨d, .plain h, settle_of_plainValue h⟩

theorem spells_of_items (policy : KeyPolicy) : (fuel levels : Nat) → (read : List Document) →
    (cs : List Code) → ∀ d rest, items policy fuel levels read cs = .ok (d, rest) →
      ∃ trees ds, SpellsItems levels cs trees rest ∧ policy.settleItems levels trees = .ok ds ∧
        d = .list (read.reverse ++ ds)
  | 0, _, _, _ => by
    intro d rest h
    cases h
  | fuel + 1, levels, read, cs => by
    intro d rest h
    rw [items] at h
    obtain ⟨⟨x, after⟩, hx, h⟩ := Except.bind_eq_ok.mp h
    obtain ⟨tree, spelled, settled⟩ := spells_of_value policy fuel levels cs _ _ hx
    dsimp only at h
    split at h
    · rename_i close
      obtain ⟨rfl, rfl⟩ := Prod.mk.inj (Except.ok.inj h)
      refine ⟨[tree], [x], .last spelled close, ?_, by simp⟩
      exact KeyPolicy.settleItems_cons_eq_ok.mpr ⟨x, [], settled, rfl, rfl⟩
    · rename_i comma
      obtain ⟨trees, ds, others, settled', rfl⟩ := spells_of_items policy fuel levels _ _ _ _ h
      refine ⟨tree :: trees, x :: ds, .more spelled comma others, ?_, by simp⟩
      exact KeyPolicy.settleItems_cons_eq_ok.mpr ⟨x, ds, settled, settled', rfl⟩
    · cases h

theorem spells_of_members (policy : KeyPolicy) : (fuel levels : Nat) →
    (read : List (Text × Document)) → (cs : List Code) →
    ∀ d rest, members policy fuel levels read cs = .ok (d, rest) →
      ∃ trees ds, SpellsMembers levels cs trees rest ∧
        policy.settleMembers levels trees = .ok ds ∧
        policy.close levels (read.reverse ++ ds) = .ok d
  | 0, _, _, _ => by
    intro d rest h
    cases h
  | fuel + 1, levels, read, cs => by
    intro d rest h
    rw [members] at h
    obtain ⟨⟨key, r⟩, name, h⟩ := Except.bind_eq_ok.mp h
    have name := Except.mapError_eq_ok.mp name
    obtain ⟨⟨x, after⟩, hx, h⟩ := Except.bind_eq_ok.mp h
    obtain ⟨tree, spelled, settled⟩ := spells_of_value policy fuel levels r _ _ hx
    dsimp only at h
    split at h
    · rename_i close
      obtain ⟨v, hv, h⟩ := Except.bind_eq_ok.mp h
      obtain ⟨rfl, rfl⟩ := Prod.mk.inj (Except.ok.inj h)
      refine ⟨[(key, tree)], [(key, x)], .last name spelled close, ?_, by simpa using hv⟩
      exact KeyPolicy.settleMembers_cons_eq_ok.mpr ⟨x, [], settled, rfl, rfl⟩
    · rename_i comma
      obtain ⟨trees, ds, others, settled', closed⟩ :=
        spells_of_members policy fuel levels _ _ _ _ h
      refine ⟨(key, tree) :: trees, (key, x) :: ds, .more name spelled comma others, ?_,
        by simpa using closed⟩
      exact KeyPolicy.settleMembers_cons_eq_ok.mpr ⟨x, ds, settled, settled', rfl⟩
    · cases h

end

/-! ## How values start -/

/-- The characters that words and numbers start with. -/
def plainStarts : List Char :=
  ['n', 't', 'f', 'N', 'I', '-', '0', '1', '2', '3', '4', '5', '6', '7', '8', '9']

theorem starts_of_digit {c : Code} (digit : isDigitCode c = true) :
    ∃ ch ∈ plainStarts, c = .char ch := by
  obtain ⟨d, hd⟩ := Option.isSome_iff_exists.mp digit
  obtain ⟨ch, hch, value⟩ := Option.bind_eq_some_iff.mp hd
  obtain ⟨lt, rfl⟩ := Numeral.asciiDigit?_eq_some_iff.mp value
  have known : ∀ d : Fin 10, Nat.digitChar d ∈ plainStarts := by decide
  refine ⟨_, known ⟨d, lt⟩, ?_⟩
  cases c with
  | char ch => exact congrArg Code.char (Option.some.inj hch)
  | lone half => cases hch

theorem starts_of_whole? {cs rest : List Code} {ds : List Nat} (h : whole? cs = some (ds, rest)) :
    ∃ ch ∈ plainStarts, ∃ r, cs = .char ch :: r := by
  unfold whole? at h
  split at h
  · rename_i r
    exact ⟨'0', by decide, r, rfl⟩
  · rename_i c r _
    split at h
    · rename_i digit
      obtain ⟨ch, hch, rfl⟩ := starts_of_digit digit
      exact ⟨ch, hch, r, rfl⟩
    · cases h
  · cases h

theorem starts_of_plainValue {levels : Nat} {cs rest : List Code} {v : Document}
    (h : plainValue levels cs = .ok (v, rest)) : ∃ ch ∈ plainStarts, ∃ r, cs = .char ch :: r := by
  rcases plainValue_cases h with ⟨w, word, rfl, -⟩ | ⟨n, number, -⟩
  · have known : words.all (fun w =>
        plainStarts.any fun ch => w.1.codes.head? == some (Code.char ch)) = true := by decide
    obtain ⟨ch, hch, same⟩ := List.any_eq_true.mp (List.all_eq_true.mp known w word)
    obtain ⟨codes, hcodes⟩ := List.head?_eq_some_iff.mp (eq_of_beq same)
    exact ⟨ch, hch, codes ++ rest, by rw [hcodes]; rfl⟩
  · unfold number? at number
    split at number
    · exact ⟨'-', by decide, _, rfl⟩
    · obtain ⟨⟨w, cs'⟩, hw, -⟩ := Option.bind_eq_some_iff.mp number
      exact starts_of_whole? hw

theorem plainValue_ne_ok {levels : Nat} {ch : Char} {r rest : List Code} {v : Document}
    (h : ch ∉ plainStarts) : plainValue levels (.char ch :: r) ≠ .ok (v, rest) := by
  intro plain
  obtain ⟨ch', hch, after, same⟩ := starts_of_plainValue plain
  obtain rfl := Code.char.inj (List.cons.inj same).1
  exact h hch

/-- The characters that values start with. -/
def valueStarts : List Char := '"' :: '[' :: '\x7b' :: plainStarts

theorem Spells.starts {levels : Nat} {cs rest : List Code} {d : Document}
    (h : Spells levels cs d rest) : ∃ ch ∈ valueStarts, ∃ r, cs = .char ch :: r := by
  cases h with
  | str body => exact ⟨_, by decide, _, rfl⟩
  | emptyList close => exact ⟨_, by decide, _, rfl⟩
  | list items => exact ⟨_, by decide, _, rfl⟩
  | emptyMap close => exact ⟨_, by decide, _, rfl⟩
  | map members => exact ⟨_, by decide, _, rfl⟩
  | plain word =>
    obtain ⟨ch, hch, r, rfl⟩ := starts_of_plainValue word
    exact ⟨ch, by simp [valueStarts, hch], r, rfl⟩

theorem SpellsItems.starts {levels : Nat} {cs rest : List Code} {xs : List Document}
    (h : SpellsItems levels cs xs rest) : ∃ ch ∈ valueStarts, ∃ r, cs = .char ch :: r := by
  cases h with
  | last item close => exact item.starts
  | more item comma items => exact item.starts

theorem SpellsMembers.starts {levels : Nat} {cs rest : List Code} {ms : List (Text × Document)}
    (h : SpellsMembers levels cs ms rest) : ∃ r, cs = .char '"' :: r := by
  cases h with
  | last name value close =>
    obtain ⟨r, after, r', rfl, -⟩ := memberKey_eq_ok_iff.mp name
    exact ⟨r, rfl⟩
  | more name value comma members =>
    obtain ⟨r, after, r', rfl, -⟩ := memberKey_eq_ok_iff.mp name
    exact ⟨r, rfl⟩

theorem SpellsItems.not_closed {levels : Nat} {cs rest : List Code} {xs : List Document}
    (h : SpellsItems levels cs xs rest) (after : List Code) : cs ≠ .char ']' :: after := by
  rintro rfl
  obtain ⟨ch, hch, r, same⟩ := h.starts
  obtain rfl := Code.char.inj (List.cons.inj same).1
  exact absurd hch (by decide)

theorem SpellsMembers.not_closed {levels : Nat} {cs rest : List Code}
    {ms : List (Text × Document)} (h : SpellsMembers levels cs ms rest) (after : List Code) :
    cs ≠ .char '\x7d' :: after := by
  rintro rfl
  obtain ⟨r, same⟩ := h.starts
  cases same

/-! ## What trees take -/

mutual

theorem Spells.takes {levels : Nat} {cs rest : List Code} {d : Document} :
    Spells levels cs d rest → Takes cs rest
  | .str body => .code (by decide) (string_takes body).passes
  | .emptyList close => .code (by decide) (takes_of_skipSpace close (by decide)).passes
  | .list items => .code (by decide) ((skipSpace_passes _).trans items.takes.passes)
  | .emptyMap close => .code (by decide) (takes_of_skipSpace close (by decide)).passes
  | .map members => .code (by decide) ((skipSpace_passes _).trans members.takes.passes)
  | .plain word => plainValue_takes word

theorem SpellsItems.takes {levels : Nat} {cs rest : List Code} {xs : List Document} :
    SpellsItems levels cs xs rest → Takes cs rest
  | .last item close =>
    item.takes.trans_passes (takes_of_skipSpace close (by decide)).passes
  | .more (r := r) item comma items => by
    have mark := takes_of_skipSpace comma (by decide)
    have others := (skipSpace_passes r).trans items.takes.passes
    exact item.takes.trans_passes (mark.passes.trans others)

theorem SpellsMembers.takes {levels : Nat} {cs rest : List Code} {ms : List (Text × Document)} :
    SpellsMembers levels cs ms rest → Takes cs rest
  | .last name value close => by
    have mark := takes_of_skipSpace close (by decide)
    exact (memberKey_takes name).trans_passes (value.takes.passes.trans mark.passes)
  | .more (t := t) name value comma members => by
    have mark := takes_of_skipSpace comma (by decide)
    have others := (skipSpace_passes t).trans members.takes.passes
    exact (memberKey_takes name).trans_passes
      (value.takes.passes.trans (mark.passes.trans others))

end

/-! ## Every tree is read -/

theorem value_plain {policy : KeyPolicy} {fuel levels : Nat} {cs rest : List Code} {v : Document}
    (h : plainValue levels cs = .ok (v, rest)) :
    value policy (fuel + 1) levels cs = .ok (v, rest) := by
  unfold value
  split
  · exact absurd h (plainValue_ne_ok (by decide))
  · exact absurd h (plainValue_ne_ok (by decide))
  · exact absurd h (plainValue_ne_ok (by decide))
  · exact h

theorem value_list {policy : KeyPolicy} {fuel levels : Nat} {r : List Code}
    (not_closed : ∀ after, skipSpace r ≠ .char ']' :: after) :
    value policy (fuel + 1) (levels + 1) (.char '[' :: r) =
      items policy fuel levels [] (skipSpace r) := by
  rw [value]
  split
  · rename_i close
    exact absurd close (not_closed _)
  · rfl

theorem value_map {policy : KeyPolicy} {fuel levels : Nat} {r : List Code}
    (not_closed : ∀ after, skipSpace r ≠ .char '\x7d' :: after) :
    value policy (fuel + 1) (levels + 1) (.char '\x7b' :: r) =
      members policy fuel levels [] (skipSpace r) := by
  rw [value]
  split
  · rename_i close
    exact absurd close (not_closed _)
  · rfl

mutual

/-- Two units of fuel for each code point are enough, as only a bracket takes two steps. -/
theorem Spells.value {policy : KeyPolicy} {levels : Nat} {cs rest : List Code}
    {tree d : Document} {fuel : Nat} : Spells levels cs tree rest →
      policy.settle levels tree = .ok d → 2 * cs.length ≤ fuel →
        value policy (fuel + 1) levels cs = .ok (d, rest)
  | .str body, settled, _ => by
    obtain rfl := Except.ok.inj settled
    exact Except.bind_eq_ok.mpr ⟨_, Except.mapError_eq_ok.mpr body, rfl⟩
  | .emptyList close, settled, _ => by
    obtain rfl := Except.ok.inj settled
    rw [Json.value, close]
    rfl
  | .list (r := r) spelled, settled, fits => by
    obtain ⟨ds, settled', rfl⟩ := Except.map_eq_ok.mp settled
    have shorter := (skipSpace_passes r).length
    obtain ⟨fuel, rfl⟩ : ∃ n, fuel = n + 2 := ⟨fuel - 2, by rw [List.length_cons] at fits; omega⟩
    rw [value_list spelled.not_closed]
    exact spelled.items settled' (by rw [List.length_cons] at fits; omega)
  | .emptyMap close, settled, _ => by
    have closed := settled
    rw [Json.value, close]
    exact Except.bind_eq_ok.mpr ⟨d, closed, rfl⟩
  | .map (r := r) spelled, settled, fits => by
    obtain ⟨ds, settled', closed⟩ := Except.bind_eq_ok.mp settled
    have shorter := (skipSpace_passes r).length
    obtain ⟨fuel, rfl⟩ : ∃ n, fuel = n + 2 := ⟨fuel - 2, by rw [List.length_cons] at fits; omega⟩
    rw [value_map spelled.not_closed]
    exact spelled.members settled' closed (by rw [List.length_cons] at fits; omega)
  | .plain word, settled, _ => by
    rw [settle_of_plainValue word] at settled
    obtain rfl := Except.ok.inj settled
    exact value_plain word

theorem SpellsItems.items {policy : KeyPolicy} {levels : Nat} {cs rest : List Code}
    {trees ds read : List Document} {fuel : Nat} : SpellsItems levels cs trees rest →
      policy.settleItems levels trees = .ok ds → 2 * cs.length ≤ fuel →
        items policy (fuel + 2) levels read cs = .ok (.list (read.reverse ++ ds), rest)
  | .last item close, settled, fits => by
    obtain ⟨d, _, first, ⟨⟩, rfl⟩ := KeyPolicy.settleItems_cons_eq_ok.mp settled
    rw [Json.items]
    refine Except.bind_eq_ok.mpr ⟨_, item.value first fits, ?_⟩
    dsimp only
    rw [close]
    simp [pure, Except.pure]
  | .more (r := r) item comma others, settled, fits => by
    obtain ⟨d, ds, first, settled', rfl⟩ := KeyPolicy.settleItems_cons_eq_ok.mp settled
    have shorter := item.takes.length
    have behind := (takes_of_skipSpace comma (by decide)).length
    have blanks := (skipSpace_passes r).length
    obtain ⟨fuel, rfl⟩ : ∃ n, fuel = n + 1 := ⟨fuel - 1, by omega⟩
    rw [Json.items]
    refine Except.bind_eq_ok.mpr ⟨_, item.value first fits, ?_⟩
    dsimp only
    rw [comma]
    have rest : items policy (fuel + 2) levels (d :: read) _ =
        .ok (.list ((d :: read).reverse ++ ds), _) := others.items settled' (by omega)
    simpa using rest

theorem SpellsMembers.members {policy : KeyPolicy} {levels : Nat} {cs rest : List Code}
    {trees ds read : List (Text × Document)} {d : Document} {fuel : Nat} :
      SpellsMembers levels cs trees rest → policy.settleMembers levels trees = .ok ds →
        policy.close levels (read.reverse ++ ds) = .ok d → 2 * cs.length ≤ fuel →
          members policy (fuel + 2) levels read cs = .ok (d, rest)
  | .last name spelled close, settled, closed, fits => by
    obtain ⟨v, _, first, ⟨⟩, rfl⟩ := KeyPolicy.settleMembers_cons_eq_ok.mp settled
    have shorter := (memberKey_takes name).length
    rw [Json.members]
    refine Except.bind_eq_ok.mpr ⟨_, Except.mapError_eq_ok.mpr name, Except.bind_eq_ok.mpr
      ⟨_, spelled.value first (by omega), ?_⟩⟩
    dsimp only
    rw [close]
    refine Except.bind_eq_ok.mpr ⟨d, ?_, rfl⟩
    simpa using closed
  | .more (t := t) name spelled comma others, settled, closed, fits => by
    obtain ⟨v, ds, first, settled', rfl⟩ := KeyPolicy.settleMembers_cons_eq_ok.mp settled
    have keyed := (memberKey_takes name).length
    have shorter := spelled.takes.length
    have behind := (takes_of_skipSpace comma (by decide)).length
    have blanks := (skipSpace_passes t).length
    obtain ⟨fuel, rfl⟩ : ∃ n, fuel = n + 1 := ⟨fuel - 1, by omega⟩
    rw [Json.members]
    refine Except.bind_eq_ok.mpr ⟨_, Except.mapError_eq_ok.mpr name, Except.bind_eq_ok.mpr
      ⟨_, spelled.value first (by omega), ?_⟩⟩
    dsimp only
    rw [comma]
    exact others.members settled' (by simpa using closed) (by omega)

end

/-! ## Whole texts -/

theorem read_eq_ok_iff {policy : KeyPolicy} {levels : Nat} {text : List Code} {d : Document} :
    read policy levels text = .ok d ↔
      ∃ tree, SpellsText levels text tree ∧ policy.settle levels tree = .ok d := by
  have blanks := (skipSpace_passes text).length
  constructor
  · intro h
    obtain ⟨⟨v, rest⟩, hv, h⟩ := Except.bind_eq_ok.mp h
    obtain ⟨tree, spelled, settled⟩ := spells_of_value policy _ _ _ _ _ hv
    dsimp only at h
    split at h
    · rename_i closed
      obtain rfl := Except.ok.inj h
      exact ⟨tree, ⟨rest, spelled, closed⟩, settled⟩
    · cases h
  · rintro ⟨tree, ⟨rest, spelled, closed⟩, settled⟩
    refine Except.bind_eq_ok.mpr ⟨_, spelled.value settled (by omega), ?_⟩
    dsimp only
    rw [closed]
    rfl

theorem SpellsText.stands {levels : Nat} {text : List Code} {d : Document}
    (h : SpellsText levels text d) : ∀ c ∈ text, Stands c := by
  obtain ⟨rest, spelled, closed⟩ := h
  have behind := skipSpace_passes rest
  rw [closed] at behind
  exact ((skipSpace_passes text).trans (spelled.takes.passes.trans behind)).all

/-- A byte order mark is no blank and starts no value. -/
theorem not_spellsText_of_mark {levels : Nat} {r : List Code} {d : Document} :
    ¬ SpellsText levels (.char '\ufeff' :: r) d := by
  rintro ⟨rest, spelled, -⟩
  obtain ⟨ch, hch, after, same⟩ := spelled.starts
  obtain rfl := Code.char.inj (List.cons.inj same).1
  exact absurd hch (by decide)

theorem readMarked_eq_ok_iff {policy : KeyPolicy} {levels : Nat} {text : List Code}
    {d : Document} :
    readMarked policy levels text = .ok d ↔
      ∃ tree, SpellsText levels text tree ∧ policy.settle levels tree = .ok d := by
  unfold readMarked
  split
  · simp only [reduceCtorEq, false_iff, not_exists, not_and]
    exact fun tree spelled => absurd spelled not_spellsText_of_mark
  · exact read_eq_ok_iff

/-! ## One tree for each text -/

theorem plainValue_of_le {l l' : Nat} {cs : List Code} {r : Document × List Code} (le : l ≤ l')
    (h : plainValue l cs = .ok r) : plainValue l' cs = .ok r := by
  unfold plainValue at h ⊢
  cases found : word? cs with
  | none =>
    rw [found] at h
    exact h
  | some w =>
    simp only [found] at h ⊢
    split at h
    · cases h
    · rename_i called
      rw [if_neg fun both => called ⟨by omega, both.2⟩]
      exact h

theorem plainValue_unique {l l' : Nat} {cs rest rest' : List Code} {d d' : Document}
    (h : plainValue l cs = .ok (d, rest)) (h' : plainValue l' cs = .ok (d', rest')) :
    d = d' ∧ rest = rest' := by
  have both := (plainValue_of_le (Nat.le_max_left l l') h).symm.trans
    (plainValue_of_le (Nat.le_max_right l l') h')
  exact Prod.mk.inj (Except.ok.inj both)

mutual

theorem Spells.unique {l l' : Nat} {cs rest rest' : List Code} {d d' : Document} :
    Spells l cs d rest → Spells l' cs d' rest' → d = d' ∧ rest = rest'
  | .str body, other => by
    cases other with
    | str body' =>
      obtain ⟨rfl, rfl⟩ := Prod.mk.inj (Except.ok.inj (body.symm.trans body'))
      exact ⟨rfl, rfl⟩
    | plain word => exact absurd word (plainValue_ne_ok (by decide))
  | .emptyList close, other => by
    cases other with
    | emptyList close' =>
      obtain ⟨-, rfl⟩ := List.cons.inj (close.symm.trans close')
      exact ⟨rfl, rfl⟩
    | list items => exact absurd close (items.not_closed _)
    | plain word => exact absurd word (plainValue_ne_ok (by decide))
  | .list items, other => by
    cases other with
    | emptyList close => exact absurd close (items.not_closed _)
    | list items' =>
      obtain ⟨rfl, rfl⟩ := items.unique items'
      exact ⟨rfl, rfl⟩
    | plain word => exact absurd word (plainValue_ne_ok (by decide))
  | .emptyMap close, other => by
    cases other with
    | emptyMap close' =>
      obtain ⟨-, rfl⟩ := List.cons.inj (close.symm.trans close')
      exact ⟨rfl, rfl⟩
    | map members => exact absurd close (members.not_closed _)
    | plain word => exact absurd word (plainValue_ne_ok (by decide))
  | .map members, other => by
    cases other with
    | emptyMap close => exact absurd close (members.not_closed _)
    | map members' =>
      obtain ⟨rfl, rfl⟩ := members.unique members'
      exact ⟨rfl, rfl⟩
    | plain word => exact absurd word (plainValue_ne_ok (by decide))
  | .plain word, other => by
    cases other with
    | plain word' => exact plainValue_unique word word'
    | str => exact absurd word (plainValue_ne_ok (by decide))
    | emptyList => exact absurd word (plainValue_ne_ok (by decide))
    | list => exact absurd word (plainValue_ne_ok (by decide))
    | emptyMap => exact absurd word (plainValue_ne_ok (by decide))
    | map => exact absurd word (plainValue_ne_ok (by decide))

theorem SpellsItems.unique {l l' : Nat} {cs rest rest' : List Code} {xs xs' : List Document} :
    SpellsItems l cs xs rest → SpellsItems l' cs xs' rest' → xs = xs' ∧ rest = rest'
  | .last item close, other => by
    cases other with
    | last item' close' =>
      obtain ⟨rfl, rfl⟩ := item.unique item'
      obtain ⟨-, rfl⟩ := List.cons.inj (close.symm.trans close')
      exact ⟨rfl, rfl⟩
    | more item' comma =>
      obtain ⟨rfl, rfl⟩ := item.unique item'
      cases close.symm.trans comma
  | .more item comma items, other => by
    cases other with
    | last item' close =>
      obtain ⟨rfl, rfl⟩ := item.unique item'
      cases comma.symm.trans close
    | more item' comma' items' =>
      obtain ⟨rfl, rfl⟩ := item.unique item'
      obtain ⟨-, rfl⟩ := List.cons.inj (comma.symm.trans comma')
      obtain ⟨rfl, rfl⟩ := items.unique items'
      exact ⟨rfl, rfl⟩

theorem SpellsMembers.unique {l l' : Nat} {cs rest rest' : List Code}
    {ms ms' : List (Text × Document)} :
    SpellsMembers l cs ms rest → SpellsMembers l' cs ms' rest' → ms = ms' ∧ rest = rest'
  | .last name value close, other => by
    cases other with
    | last name' value' close' =>
      obtain ⟨rfl, rfl⟩ := Prod.mk.inj (Except.ok.inj (name.symm.trans name'))
      obtain ⟨rfl, rfl⟩ := value.unique value'
      obtain ⟨-, rfl⟩ := List.cons.inj (close.symm.trans close')
      exact ⟨rfl, rfl⟩
    | more name' value' comma =>
      obtain ⟨rfl, rfl⟩ := Prod.mk.inj (Except.ok.inj (name.symm.trans name'))
      obtain ⟨rfl, rfl⟩ := value.unique value'
      cases close.symm.trans comma
  | .more name value comma members, other => by
    cases other with
    | last name' value' close =>
      obtain ⟨rfl, rfl⟩ := Prod.mk.inj (Except.ok.inj (name.symm.trans name'))
      obtain ⟨rfl, rfl⟩ := value.unique value'
      cases comma.symm.trans close
    | more name' value' comma' members' =>
      obtain ⟨rfl, rfl⟩ := Prod.mk.inj (Except.ok.inj (name.symm.trans name'))
      obtain ⟨rfl, rfl⟩ := value.unique value'
      obtain ⟨-, rfl⟩ := List.cons.inj (comma.symm.trans comma')
      obtain ⟨rfl, rfl⟩ := members.unique members'
      exact ⟨rfl, rfl⟩

end

theorem SpellsText.unique {l l' : Nat} {text : List Code} {d d' : Document}
    (h : SpellsText l text d) (h' : SpellsText l' text d') : d = d' := by
  obtain ⟨rest, spelled, -⟩ := h
  obtain ⟨rest', spelled', -⟩ := h'
  exact (spelled.unique spelled').1

end FieldProgram.Json

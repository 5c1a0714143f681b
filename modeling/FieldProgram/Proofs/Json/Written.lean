import FieldProgram.Proofs.Document.Short
import FieldProgram.Proofs.Json.Distinct
import FieldProgram.Proofs.Json.Joined
import FieldProgram.Proofs.Json.Short
import FieldProgram.Proofs.Text.Blank

/-!
# Written documents read back

A document without floats that does not nest too deep is written as a text whose tree is the same
document, except that split surrogate pairs are joined.

* `plainValue_shortDecimal`: written integers read back;
* `Written.spelled`: the text of a document has the joined document as its tree;
* `failsUnless_write`: exactly the short documents have a text;
* `spellsText_write`: the tree of a whole text that was written.
-/

namespace FieldProgram

open Numeral

/-! ## Documents that are written -/

namespace Document

mutual

/-- There are no floats in the document, and its brackets nest at most `levels` deep. -/
def FitsIn : (levels : Nat) → Document → Prop
  | _, .float _ => False
  | levels, .list items => 0 < levels ∧ FitsInItems (levels - 1) items
  | levels, .map members => 0 < levels ∧ FitsInMembers (levels - 1) members
  | _, _ => True

def FitsInItems : (levels : Nat) → List Document → Prop
  | _, [] => True
  | levels, x :: xs => FitsIn levels x ∧ FitsInItems levels xs

def FitsInMembers : (levels : Nat) → List (Text × Document) → Prop
  | _, [] => True
  | levels, (_, v) :: ms => FitsIn levels v ∧ FitsInMembers levels ms

end

mutual

/-- The document with the pairs joined that are split in its texts. -/
def joined : Document → Document
  | .str t => .str t.joined
  | .list items => .list (joinedItems items)
  | .map members => .map (joinedMembers members)
  | d => d

def joinedItems : List Document → List Document
  | [] => []
  | x :: xs => joined x :: joinedItems xs

def joinedMembers : List (Text × Document) → List (Text × Document)
  | [] => []
  | (k, v) :: ms => (k.joined, joined v) :: joinedMembers ms

end

theorem fitsInItems_iff {levels : Nat} {xs : List Document} :
    FitsInItems levels xs ↔ ∀ x ∈ xs, FitsIn levels x := by
  induction xs with
  | nil => simp [FitsInItems]
  | cons x xs ih => rw [FitsInItems, ih, List.forall_mem_cons]

theorem fitsInMembers_iff {levels : Nat} {ms : List (Text × Document)} :
    FitsInMembers levels ms ↔ ∀ m ∈ ms, FitsIn levels m.2 := by
  induction ms with
  | nil => simp [FitsInMembers]
  | cons m ms ih =>
    obtain ⟨k, v⟩ := m
    rw [FitsInMembers, ih, List.forall_mem_cons]

@[simp] theorem fitsIn_null {levels : Nat} : FitsIn levels .null := by simp [FitsIn]

@[simp] theorem fitsIn_int {levels : Nat} {n : Int} : FitsIn levels (.int n) := by simp [FitsIn]

@[simp] theorem fitsIn_str {levels : Nat} {t : Text} : FitsIn levels (.str t) := by simp [FitsIn]

@[simp] theorem fitsIn_list {levels : Nat} {xs : List Document} :
    FitsIn (levels + 1) (.list xs) ↔ ∀ x ∈ xs, FitsIn levels x := by
  simp [FitsIn, fitsInItems_iff]

@[simp] theorem fitsIn_map {levels : Nat} {ms : List (Text × Document)} :
    FitsIn (levels + 1) (.map ms) ↔ ∀ m ∈ ms, FitsIn levels m.2 := by
  simp [FitsIn, fitsInMembers_iff]

end Document

namespace Json

/-! ## What follows a value -/

/-- The characters that stand behind values. -/
def delimiters : List Char := [',', '\n', ']', '\x7d']

/-- Nothing follows, or one of the characters that stand behind values. -/
def Delimited (rest : List Code) : Prop :=
  rest = [] ∨ ∃ c ∈ delimiters, ∃ after, rest = .char c :: after

theorem delimited_cons {c : Char} (h : c ∈ delimiters) (after : List Code) :
    Delimited (.char c :: after) := .inr ⟨c, h, after, rfl⟩

theorem Delimited.head {P : Code → Prop} [DecidablePred P]
    (known : delimiters.all (fun c => decide (P (.char c))) = true)
    {rest : List Code} (h : Delimited rest) : ∀ c ∈ rest.head?, P c := by
  rcases h with rfl | ⟨c, hc, after, rfl⟩
  · simp
  · intro d hd
    obtain rfl := Option.some.inj hd
    exact of_decide_eq_true (List.all_eq_true.mp known c hc)

/-! ## Integers -/

theorem digitCode?_digitChar {d : Nat} (h : d < 10) :
    digitCode? (.char (Nat.digitChar d)) = some d := asciiDigit?_digitChar h

theorem isDigitCode_of_mem {ds : List Nat} (lt : ∀ d ∈ ds, d < 10) :
    ∀ c ∈ codesOf (ds.map Nat.digitChar), isDigitCode c = true := by
  intro c hc
  obtain ⟨ch, hch, rfl⟩ := List.mem_map.mp hc
  obtain ⟨d, hd, rfl⟩ := List.mem_map.mp hch
  rw [isDigitCode, digitCode?_digitChar (lt d hd)]
  rfl

theorem filterMap_digits {ds : List Nat} (lt : ∀ d ∈ ds, d < 10) :
    (codesOf (ds.map Nat.digitChar)).filterMap digitCode? = ds := by
  induction ds with
  | nil => rfl
  | cons d ds ih =>
    obtain ⟨first, others⟩ := List.forall_mem_cons.mp lt
    rw [List.map_cons, codesOf_cons, List.filterMap_cons, digitCode?_digitChar first, ih others]

theorem digitRun_digits {ds : List Nat} (lt : ∀ d ∈ ds, d < 10) {rest : List Code}
    (stop : Delimited rest) : digitRun (codesOf (ds.map Nat.digitChar) ++ rest) = (ds, rest) := by
  have all := isDigitCode_of_mem lt
  have no_digit : ∀ c ∈ rest.head?, isDigitCode c = false := stop.head (by decide)
  rw [digitRun, Text.takeWhile_run all no_digit, Text.dropWhile_run all no_digit,
    filterMap_digits lt]

theorem digits_ten_zero : digits 10 0 = [0] := by decide

theorem whole?_decimalDigits (n : Nat) {rest : List Code} (stop : Delimited rest) :
    whole? (codesOf (decimalDigits n) ++ rest) = some (digits 10 n, rest) := by
  rcases Nat.eq_zero_or_pos n with rfl | pos
  · rw [decimalDigits, digits_ten_zero]
    rfl
  · obtain ⟨d, ds, hds, nonzero⟩ := exists_digits_head (by decide : 2 ≤ 10) pos
    have lt := digits_lt (by decide : 0 < 10) n
    have run := digitRun_digits lt stop
    have digit := isDigitCode_of_mem lt
    have head : Nat.digitChar d ≠ '0' := by
      have known : ∀ d : Fin 10, Nat.digitChar d = '0' → d.val = 0 := by decide
      intro zero
      exact nonzero (known ⟨d, lt d (by simp [hds])⟩ zero)
    rw [decimalDigits]
    rw [hds] at run digit ⊢
    unfold whole?
    split
    · rename_i same
      exact absurd (Code.char.inj (List.cons.inj same).1) head
    · rename_i c r _ same
      obtain ⟨rfl, rfl⟩ := List.cons.inj same
      rw [if_pos (digit _ (by simp))]
      exact congrArg some run
    · rename_i same
      cases same

theorem fraction_delimited {rest : List Code} (stop : Delimited rest) :
    fraction rest = ([], rest) := by
  have no_point : ∀ c ∈ rest.head?, c ≠ .char '.' := stop.head (by decide)
  unfold fraction
  split
  · exact absurd rfl (no_point _ rfl)
  · rfl

theorem power_delimited {rest : List Code} (stop : Delimited rest) :
    power rest = (none, rest) := by
  have no_letter : ∀ c ∈ rest.head?, ¬(c = .char 'e' ∨ c = .char 'E') := stop.head (by decide)
  unfold power
  split
  · rw [if_neg (no_letter _ rfl)]
  · rfl

theorem unsignedNumber?_decimalDigits (negative : Bool) (n : Nat) {rest : List Code}
    (stop : Delimited rest) :
    unsignedNumber? negative (codesOf (decimalDigits n) ++ rest) =
      some (⟨negative, digits 10 n, [], none⟩, rest) := by
  rw [unsignedNumber?, whole?_decimalDigits n stop]
  show some (Number.mk negative (digits 10 n) (fraction rest).1 (power (fraction rest).2).1,
    (power (fraction rest).2).2) = _
  rw [fraction_delimited stop, power_delimited stop]

/-- Digits come after the sign of a number, and no word starts with one. -/
theorem exists_decimalDigits_head (n : Nat) :
    ∃ d ds, d < 10 ∧ decimalDigits n = Nat.digitChar d :: ds := by
  obtain ⟨d, ds, hds⟩ := List.exists_cons_of_ne_nil (digits_ne_nil 10 n)
  exact ⟨d, ds.map Nat.digitChar, digits_lt (by decide) n d (by simp [hds]),
    by rw [decimalDigits, hds, List.map_cons]⟩

theorem word?_digit {d : Nat} (lt : d < 10) (r : List Code) :
    word? (.char (Nat.digitChar d) :: r) = none ∧
      word? (.char '-' :: .char (Nat.digitChar d) :: r) = none := by
  have known : ∀ d : Fin 10, word? (.char (Nat.digitChar d) :: r) = none ∧
      word? (.char '-' :: .char (Nat.digitChar d) :: r) = none := by
    intro d
    match d with
    | 0 | 1 | 2 | 3 | 4 | 5 | 6 | 7 | 8 | 9 => exact ⟨rfl, rfl⟩
  exact known ⟨d, lt⟩

theorem number?_digit {d : Nat} (lt : d < 10) (r : List Code) :
    number? (.char (Nat.digitChar d) :: r) =
      unsignedNumber? false (.char (Nat.digitChar d) :: r) := by
  have sign : ∀ d : Fin 10, Nat.digitChar d ≠ '-' := by decide
  unfold number?
  split
  · rename_i same
    exact absurd (Code.char.inj (List.cons.inj same).1) (sign ⟨d, lt⟩)
  · rfl

theorem Number.value_digits {n : Int} (short : Document.ShortInteger n) :
    (Number.mk (decide (n < 0)) (digits 10 n.natAbs) [] none).value = .ok (.int n) := by
  rw [Number.value, if_pos ⟨rfl, rfl⟩]
  refine Except.bind_eq_ok.mpr ⟨n.natAbs, ofDecimalDigits_digits short, ?_⟩
  by_cases negative : n < 0
  · simp only [negative, decide_true, if_true, pure, Except.pure]
    congr 2
    omega
  · simp only [negative, decide_false, Bool.false_eq_true, if_false, pure, Except.pure]
    congr 2
    omega

theorem number?_shortDecimal (n : Int) {rest : List Code} (stop : Delimited rest) :
    word? (codesOf (shortDecimal n).toList ++ rest) = none ∧
      number? (codesOf (shortDecimal n).toList ++ rest) =
        some (⟨decide (n < 0), digits 10 n.natAbs, [], none⟩, rest) := by
  obtain ⟨d, ds, lt, hds⟩ := exists_decimalDigits_head n.natAbs
  have number := unsignedNumber?_decimalDigits (decide (n < 0)) n.natAbs stop
  rw [hds] at number
  obtain ⟨no_word, no_word'⟩ := word?_digit lt (codesOf ds ++ rest)
  by_cases negative : n < 0
  · have text : codesOf (shortDecimal n).toList ++ rest =
        .char '-' :: .char (Nat.digitChar d) :: (codesOf ds ++ rest) := by
      simp [shortDecimal, negative, hds]
    rw [decide_eq_true negative] at number ⊢
    rw [text]
    exact ⟨no_word', number⟩
  · have text : codesOf (shortDecimal n).toList ++ rest =
        .char (Nat.digitChar d) :: (codesOf ds ++ rest) := by
      simp [shortDecimal, negative, hds]
    rw [decide_eq_false negative] at number ⊢
    rw [text, number?_digit lt]
    exact ⟨no_word, number⟩

theorem plainValue_shortDecimal {levels : Nat} {n : Int} (short : Document.ShortInteger n)
    {rest : List Code} (stop : Delimited rest) :
    plainValue levels (codesOf (shortDecimal n).toList ++ rest) = .ok (.int n, rest) := by
  obtain ⟨no_word, number⟩ := number?_shortDecimal n stop
  rw [plainValue, no_word, number]
  simp only [Number.value_digits short]

/-! ## Layout -/

theorem skipSpace_append {blanks cs : List Code} (blank : ∀ c ∈ blanks, isSpace c = true)
    (start : ∀ c ∈ cs.head?, isSpace c = false) : skipSpace (blanks ++ cs) = cs :=
  Text.dropWhile_run blank start

theorem skipSpace_of_head {cs : List Code} (start : ∀ c ∈ cs.head?, isSpace c = false) :
    skipSpace cs = cs := skipSpace_append (List.forall_mem_nil _) start

theorem space_open (l : Layout) (depth : Nat) :
    ∀ c ∈ codesOf (l.open depth), isSpace c = true := by
  intro c hc
  cases l with
  | line => cases hc
  | indented =>
    obtain ⟨ch, hch, rfl⟩ := List.mem_map.mp hc
    rcases List.mem_cons.mp hch with rfl | hch
    · decide
    · rw [List.eq_of_mem_replicate hch]
      decide

theorem between_eq (l : Layout) (depth : Nat) : ∃ blanks, l.between depth = ',' :: blanks ∧
    ∀ c ∈ codesOf blanks, isSpace c = true := by
  cases l with
  | line => exact ⟨[' '], rfl, by decide⟩
  | indented => exact ⟨_, rfl, space_open .indented depth⟩

/-- Behind the last part comes the closing bracket, perhaps on a line of its own. -/
theorem delimited_open (l : Layout) (depth : Nat) {close : Char} (h : close ∈ delimiters)
    (rest : List Code) : Delimited (codesOf (l.open depth) ++ .char close :: rest) := by
  cases l with
  | line => exact delimited_cons h rest
  | indented => exact delimited_cons (by decide) _

theorem space_valueStarts {cs : List Code} (starts : ∃ ch ∈ valueStarts, ∃ r, cs = .char ch :: r) :
    ∀ c ∈ cs.head?, isSpace c = false := by
  have known : valueStarts.all (fun ch => !isSpace (.char ch)) = true := by decide
  obtain ⟨ch, hch, r, rfl⟩ := starts
  intro c hc
  obtain rfl := Option.some.inj hc
  simpa using List.all_eq_true.mp known ch hch

theorem codesOf_intercalate_cons {sep part : List Char} {parts : List (List Char)}
    (more : parts ≠ []) (tail : List Code) :
    codesOf (sep.intercalate (part :: parts)) ++ tail =
      codesOf part ++ (codesOf sep ++ (codesOf (sep.intercalate parts) ++ tail)) := by
  cases parts with
  | nil => exact absurd rfl more
  | cons p ps => simp [List.intercalate]

/-- The text of parts in brackets, from behind the opening one. -/
theorem parts_eq (l : Layout) (depth : Nat) (opening closing : Char) {parts : List (List Char)}
    (some_part : parts ≠ []) (rest : List Code) :
    codesOf (l.parts depth opening closing parts) ++ rest = .char opening ::
      (codesOf (l.open (depth + 1)) ++ (codesOf ((l.between (depth + 1)).intercalate parts) ++
        (codesOf (l.open depth) ++ .char closing :: rest))) := by
  rw [Layout.parts, if_neg some_part]
  simp

/-! ## Documents -/

theorem writtenItems_ne_nil {l : Layout} {depth : Nat} {x : Document} {xs : List Document}
    {ps : List (List Char)} (h : writtenItems l depth (x :: xs) = .ok ps) : ps ≠ [] := by
  obtain ⟨first, -, h⟩ := Except.bind_eq_ok.mp h
  obtain ⟨rest, -, h⟩ := Except.bind_eq_ok.mp h
  obtain rfl := Except.ok.inj h
  exact List.cons_ne_nil _ _

theorem writtenMembers_ne_nil {l : Layout} {depth : Nat} {m : Text × Document}
    {ms : List (Text × Document)} {ps : List (List Char)}
    (h : writtenMembers l depth (m :: ms) = .ok ps) : ps ≠ [] := by
  obtain ⟨k, v⟩ := m
  obtain ⟨first, -, h⟩ := Except.bind_eq_ok.mp h
  obtain ⟨rest, -, h⟩ := Except.bind_eq_ok.mp h
  obtain rfl := Except.ok.inj h
  exact List.cons_ne_nil _ _

theorem head_notSpace {c : Char} (h : isSpace (.char c) = false) (r : List Code) :
    ∀ d ∈ (Code.char c :: r).head?, isSpace d = false := by
  intro d hd
  obtain rfl := Option.some.inj hd
  exact h

theorem memberKey_written (k : Text) {rest : List Code}
    (start : ∀ c ∈ rest.head?, isSpace c = false) :
    memberKey (codesOf (writtenString k) ++ .char ':' :: .char ' ' :: rest) =
      .ok (k.joined, rest) := by
  have spaced : skipSpace (.char ' ' :: rest) = rest :=
    skipSpace_append (List.forall_mem_singleton.mpr rfl) start
  have colon : skipSpace (.char ':' :: .char ' ' :: rest) = .char ':' :: .char ' ' :: rest :=
    skipSpace_of_head (head_notSpace (by decide) _)
  refine memberKey_eq_ok_iff.mpr ⟨_, _, .char ' ' :: rest, ?_, string_written k _, colon,
    spaced.symm⟩
  simp [writtenString]

theorem plainValue_word {levels : Nat} {cs : List Char} {v : Document} {rest : List Code}
    (h : word? (codesOf cs ++ rest) = some (v, rest)) (itself : isCalled v = false) :
    plainValue levels (codesOf cs ++ rest) = .ok (v, rest) := by
  rw [plainValue, h]
  simp [itself]

theorem plainValue_words (levels : Nat) (rest : List Code) :
    plainValue levels (codesOf "null".toList ++ rest) = .ok (.null, rest) ∧
      plainValue levels (codesOf "true".toList ++ rest) = .ok (.bool true, rest) ∧
      plainValue levels (codesOf "false".toList ++ rest) = .ok (.bool false, rest) :=
  ⟨plainValue_word rfl rfl, plainValue_word rfl rfl, plainValue_word rfl rfl⟩

/-- The characters are spelled as a value before whatever may stand behind values. -/
def Spelled (levels : Nat) (cs : List Char) (d : Document) : Prop :=
  ∀ rest, Delimited rest → Spells levels (codesOf cs ++ rest) d rest

section Parts

variable {levels : Nat} {cs : List Char} {x : Document} (item : Spelled levels cs x) (l : Layout)
  (depth : Nat)

include item

theorem Spelled.lastItem (rest : List Code) :
    SpellsItems levels (codesOf cs ++ (codesOf (l.open depth) ++ .char ']' :: rest)) [x] rest :=
  .last (item _ (delimited_open l depth (by decide) rest))
    (skipSpace_append (space_open l depth) (head_notSpace (by decide) _))

theorem Spelled.lastMember (k : Text) (rest : List Code) :
    SpellsMembers levels (codesOf (writtenString k ++ ':' :: ' ' :: cs) ++
      (codesOf (l.open depth) ++ .char '\x7d' :: rest)) [(k.joined, x)] rest := by
  have value := item _ (delimited_open l depth (show '\x7d' ∈ delimiters by decide) rest)
  have key := memberKey_written k (space_valueStarts value.starts)
  rw [codesOf_append, codesOf_cons, codesOf_cons, List.append_assoc]
  exact .last key value (skipSpace_append (space_open l depth) (head_notSpace (by decide) _))

/-- What stands between two parts is a comma and blanks. -/
theorem Spelled.before_comma (tail : List Code) (start : ∀ c ∈ tail.head?, isSpace c = false) :
    Spells levels (codesOf cs ++ (codesOf (l.between depth) ++ tail)) x
      (codesOf (l.between depth) ++ tail) ∧
    ∃ r, skipSpace (codesOf (l.between depth) ++ tail) = .char ',' :: r ∧ skipSpace r = tail := by
  obtain ⟨blanks, hblanks, blank⟩ := between_eq l depth
  rw [hblanks, codesOf_cons, List.cons_append]
  refine ⟨item _ (delimited_cons (by decide) _), codesOf blanks ++ tail, ?_, ?_⟩
  · exact skipSpace_of_head (head_notSpace (by decide) _)
  · exact skipSpace_append blank start

theorem Spelled.moreItems {tail rest : List Code} {xs : List Document}
    (items : SpellsItems levels tail xs rest) :
    SpellsItems levels (codesOf cs ++ (codesOf (l.between depth) ++ tail)) (x :: xs) rest := by
  obtain ⟨first, r, comma, spaced⟩ :=
    item.before_comma l depth tail (space_valueStarts items.starts)
  exact .more first comma (spaced.symm ▸ items)

theorem Spelled.moreMembers (k : Text) {tail rest : List Code} {ms : List (Text × Document)}
    (members : SpellsMembers levels tail ms rest) :
    SpellsMembers levels (codesOf (writtenString k ++ ':' :: ' ' :: cs) ++
      (codesOf (l.between depth) ++ tail)) ((k.joined, x) :: ms) rest := by
  obtain ⟨r', hr'⟩ := members.starts
  obtain ⟨value, r, comma, spaced⟩ :=
    item.before_comma l depth tail (space_valueStarts ⟨'"', by decide, r', hr'⟩)
  have key := memberKey_written k (space_valueStarts value.starts)
  rw [codesOf_append, codesOf_cons, codesOf_cons, List.append_assoc]
  exact .more key value comma (spaced.symm ▸ members)

end Parts

theorem Spelled.list {l : Layout} {depth levels : Nat} {xs : List Document}
    {parts : List (List Char)} (some_part : parts ≠ [])
    (items : ∀ rest, SpellsItems levels (codesOf ((l.between (depth + 1)).intercalate parts) ++
      (codesOf (l.open depth) ++ .char ']' :: rest)) xs rest) :
    Spelled (levels + 1) (l.parts depth '[' ']' parts) (.list xs) := by
  intro rest _
  rw [parts_eq l depth '[' ']' some_part]
  refine .list ?_
  rw [skipSpace_append (space_open l (depth + 1)) (space_valueStarts (items rest).starts)]
  exact items rest

theorem Spelled.map {l : Layout} {depth levels : Nat} {ms : List (Text × Document)}
    {parts : List (List Char)} (some_part : parts ≠ [])
    (members : ∀ rest, SpellsMembers levels (codesOf ((l.between (depth + 1)).intercalate parts) ++
      (codesOf (l.open depth) ++ .char '\x7d' :: rest)) ms rest) :
    Spelled (levels + 1) (l.parts depth '\x7b' '\x7d' parts) (.map ms) := by
  intro rest _
  obtain ⟨r, starts⟩ := (members rest).starts
  rw [parts_eq l depth '\x7b' '\x7d' some_part]
  refine .map ?_
  rw [skipSpace_append (space_open l (depth + 1)) (space_valueStarts ⟨'"', by decide, r, starts⟩)]
  exact members rest

mutual

theorem Written.spelled (l : Layout) : (d : Document) → ∀ {depth levels cs},
    d.FitsIn levels → written l depth d = .ok cs → Spelled levels cs d.joined
  | .null, _, _, _, _, h => by
    obtain rfl := Except.ok.inj h
    exact fun rest _ => .plain (plainValue_words _ rest).1
  | .bool true, _, _, _, _, h => by
    obtain rfl := Except.ok.inj h
    exact fun rest _ => .plain (plainValue_words _ rest).2.1
  | .bool false, _, _, _, _, h => by
    obtain rfl := Except.ok.inj h
    exact fun rest _ => .plain (plainValue_words _ rest).2.2
  | .int n, _, _, _, _, h => by
    obtain ⟨s, hs, h⟩ := Except.bind_eq_ok.mp h
    obtain rfl := Except.ok.inj h
    obtain ⟨short, rfl⟩ := decimalText_eq_ok_iff.mp hs
    exact fun rest stop => .plain (plainValue_shortDecimal short stop)
  | .float _, _, _, _, fits, _ => fits.elim
  | .str t, _, levels, _, _, h => by
    obtain rfl := Except.ok.inj h
    intro rest _
    have spelled : Spells levels _ (.str t.joined) rest := .str (string_written t rest)
    simpa [writtenString, Document.joined] using spelled
  | .list xs, depth, levels, cs, fits, h => by
    obtain ⟨pos, fits⟩ := fits
    obtain ⟨ps, hps, h⟩ := Except.bind_eq_ok.mp h
    obtain rfl := Except.ok.inj h
    obtain ⟨levels, rfl⟩ := Nat.exists_eq_succ_of_ne_zero (Nat.ne_of_gt pos)
    cases xs with
    | nil =>
      obtain rfl := Except.ok.inj hps
      exact fun rest _ => .emptyList rfl
    | cons x xs =>
      exact .list (writtenItems_ne_nil hps)
        (WrittenItems.spelled l (x :: xs) (List.cons_ne_nil _ _) fits hps)
  | .map ms, depth, levels, cs, fits, h => by
    obtain ⟨pos, fits⟩ := fits
    obtain ⟨ps, hps, h⟩ := Except.bind_eq_ok.mp h
    obtain rfl := Except.ok.inj h
    obtain ⟨levels, rfl⟩ := Nat.exists_eq_succ_of_ne_zero (Nat.ne_of_gt pos)
    cases ms with
    | nil =>
      obtain rfl := Except.ok.inj hps
      exact fun rest _ => .emptyMap rfl
    | cons m ms =>
      exact .map (writtenMembers_ne_nil hps)
        (WrittenMembers.spelled l (m :: ms) (List.cons_ne_nil _ _) fits hps)

theorem WrittenItems.spelled (l : Layout) : (xs : List Document) → xs ≠ [] →
    ∀ {depth levels ps}, Document.FitsInItems levels xs →
      writtenItems l (depth + 1) xs = .ok ps → ∀ rest,
      SpellsItems levels (codesOf ((l.between (depth + 1)).intercalate ps) ++
        (codesOf (l.open depth) ++ .char ']' :: rest)) (Document.joinedItems xs) rest
  | [], some_item => absurd rfl some_item
  | [x], _ => by
    intro fits h rest
    obtain ⟨first, hfirst, h⟩ := Except.bind_eq_ok.mp h
    obtain ⟨_, ⟨⟩, h⟩ := Except.bind_eq_ok.mp h
    obtain rfl := Except.ok.inj h
    have item := Written.spelled l x fits.1 hfirst
    rw [List.intercalate_singleton]
    exact item.lastItem l _ _
  | x :: y :: xs, _ => by
    intro fits h rest
    obtain ⟨first, hfirst, h⟩ := Except.bind_eq_ok.mp h
    obtain ⟨ps', hps', h⟩ := Except.bind_eq_ok.mp h
    obtain rfl := Except.ok.inj h
    have item := Written.spelled l x fits.1 hfirst
    have items := WrittenItems.spelled l (y :: xs) (List.cons_ne_nil _ _) fits.2 hps' rest
    rw [codesOf_intercalate_cons (writtenItems_ne_nil hps')]
    exact item.moreItems l _ items

theorem WrittenMembers.spelled (l : Layout) : (ms : List (Text × Document)) → ms ≠ [] →
    ∀ {depth levels ps}, Document.FitsInMembers levels ms →
      writtenMembers l (depth + 1) ms = .ok ps → ∀ rest,
      SpellsMembers levels (codesOf ((l.between (depth + 1)).intercalate ps) ++
        (codesOf (l.open depth) ++ .char '\x7d' :: rest)) (Document.joinedMembers ms) rest
  | [], some_member => absurd rfl some_member
  | [(k, v)], _ => by
    intro fits h rest
    obtain ⟨value, hvalue, h⟩ := Except.bind_eq_ok.mp h
    obtain ⟨_, ⟨⟩, h⟩ := Except.bind_eq_ok.mp h
    obtain rfl := Except.ok.inj h
    have item := Written.spelled l v fits.1 hvalue
    rw [List.intercalate_singleton]
    exact item.lastMember l _ k _
  | (k, v) :: m :: ms, _ => by
    intro fits h rest
    obtain ⟨value, hvalue, h⟩ := Except.bind_eq_ok.mp h
    obtain ⟨ps', hps', h⟩ := Except.bind_eq_ok.mp h
    obtain rfl := Except.ok.inj h
    have item := Written.spelled l v fits.1 hvalue
    have members := WrittenMembers.spelled l (m :: ms) (List.cons_ne_nil _ _) fits.2 hps' rest
    rw [codesOf_intercalate_cons (writtenMembers_ne_nil hps')]
    exact item.moreMembers l _ k members

end

/-! ## Whole texts -/

theorem codes_line (cs : List Char) :
    ((String.ofList cs : Text) ++ ("\n" : Text)).codes = codesOf cs ++ [.char '\n'] := by
  show (String.ofList cs).toList.map Code.char ++ _ = _
  rw [String.toList_ofList]
  rfl

theorem spellsText_write {l : Layout} {levels : Nat} {d : Document} {s : String}
    (fits : d.FitsIn levels) (h : write l d = .ok s) :
    SpellsText levels ((s : Text) ++ ("\n" : Text)).codes d.joined := by
  obtain ⟨cs, hcs, h⟩ := Except.bind_eq_ok.mp h
  obtain rfl := Except.ok.inj h
  have spelled := Written.spelled l d fits hcs [.char '\n'] (delimited_cons (by decide) _)
  refine ⟨[.char '\n'], ?_, by decide⟩
  rwa [codes_line, skipSpace_of_head (space_valueStarts spelled.starts)]

/-! ## Documents that have a text -/

mutual

theorem failsUnless_written (l : Layout) : (d : Document) → ∀ depth,
    Except.FailsUnless d.Short .writing (written l depth d)
  | .null, _ => .ok _ Document.short_null
  | .bool true, _ => .ok _ (Document.short_bool true)
  | .bool false, _ => .ok _ (Document.short_bool false)
  | .float x, _ => .ok _ (Document.short_float x)
  | .str t, _ => .ok _ (Document.short_str t)
  | .int n, _ => by
    rw [Document.short_int]
    exact (Document.failsUnless_decimalText n).map String.toList
  | .list xs, depth => by
    rw [Document.Short]
    exact (failsUnless_writtenItems l xs (depth + 1)).map (l.parts depth '[' ']')
  | .map ms, depth => by
    rw [Document.Short]
    exact (failsUnless_writtenMembers l ms (depth + 1)).map (l.parts depth '\x7b' '\x7d')

theorem failsUnless_writtenItems (l : Layout) : (xs : List Document) → ∀ depth,
    Except.FailsUnless (Document.ShortItems xs) .writing (writtenItems l depth xs)
  | [], _ => .ok [] trivial
  | x :: xs, depth => by
    rw [Document.ShortItems]
    exact (failsUnless_written l x depth).bind fun first =>
      (failsUnless_writtenItems l xs depth).map (first :: ·)

theorem failsUnless_writtenMembers (l : Layout) : (ms : List (Text × Document)) → ∀ depth,
    Except.FailsUnless (Document.ShortMembers ms) .writing (writtenMembers l depth ms)
  | [], _ => .ok [] trivial
  | (k, v) :: ms, depth => by
    rw [Document.ShortMembers]
    exact (failsUnless_written l v depth).bind fun value =>
      (failsUnless_writtenMembers l ms depth).map ((writtenString k ++ ':' :: ' ' :: value) :: ·)

end

theorem failsUnless_write (l : Layout) (d : Document) :
    Except.FailsUnless d.Short .writing (write l d) :=
  (failsUnless_written l d 0).map String.ofList

end Json

end FieldProgram

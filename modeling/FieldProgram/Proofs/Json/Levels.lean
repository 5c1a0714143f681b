import FieldProgram.Json.Reader
import FieldProgram.Proofs.Outcome

/-!
# Reading with more levels

How deep brackets may be nested changes what is read only where the reader runs out of calls: a
reading that is not cut short is the same with more levels.

* `metWithin_stays`, `close_stays`: one error, and one object that closes;
* `readMarked_stays`, `read_stays`: a whole text;
* `value_nestedText`: lists inside each other take a level each.
-/

namespace FieldProgram.Json

variable {α β : Type} {l l' : Nat}

/-- The reading ends for lack of calls. -/
def CutShort (r : Except ReadError α) : Prop := ∃ call, r = .error (.tooDeep call)

theorem not_cutShort_ok (a : α) : ¬ CutShort (.ok a) := by
  rintro ⟨call, ⟨⟩⟩

/-! ## Steps -/

theorem bind_stays {r r' : Except ReadError α} {f f' : α → Except ReadError β}
    (uncut : ¬ CutShort (r >>= f)) (first : ¬ CutShort r → r' = r)
    (next : ∀ a, ¬ CutShort (f a) → f' a = f a) : (r' >>= f') = (r >>= f) := by
  cases r with
  | error e =>
    have same : r' = .error e := first fun ⟨call, cut⟩ => uncut ⟨call, by rw [cut]; rfl⟩
    rw [same]
    rfl
  | ok a =>
    rw [first (not_cutShort_ok a)]
    exact next a uncut

theorem metWithin_stays (le : l ≤ l') {e : ReadError}
    (uncut : ¬ CutShort (.error (e.metWithin l) : Except ReadError α)) :
    e.metWithin l' = e.metWithin l := by
  unfold ReadError.metWithin at uncut ⊢
  split at uncut
  · rfl
  · split at uncut
    · rw [if_pos (by omega), if_pos ‹_›]
    · exact absurd ⟨_, rfl⟩ uncut
  · split at uncut
    · rw [if_pos (by omega), if_pos ‹_›]
    · exact absurd ⟨_, rfl⟩ uncut
  · rfl

theorem mapError_stays (le : l ≤ l') {r : Except ReadError α}
    (uncut : ¬ CutShort (r.mapError (·.metWithin l))) :
    r.mapError (·.metWithin l') = r.mapError (·.metWithin l) := by
  cases r with
  | ok a => rfl
  | error e => exact congrArg Except.error (metWithin_stays le uncut)

theorem close_stays (le : l ≤ l') (policy : KeyPolicy) {ms : List (Text × Document)}
    (uncut : ¬ CutShort (policy.close l ms)) : policy.close l' ms = policy.close l ms := by
  cases policy with
  | keepLast => rfl
  | rejectRepeated =>
    unfold KeyPolicy.close at uncut ⊢
    dsimp only at uncut ⊢
    by_cases none : l = 0
    · exact absurd ⟨_, if_pos none⟩ uncut
    · rw [if_neg none] at uncut
      rw [if_neg none, if_neg (by omega)]
      split
      · rename_i repeated
        rw [repeated] at uncut
        exact congrArg Except.error (metWithin_stays le uncut)
      · rfl

theorem plainValue_stays (le : l ≤ l') {cs : List Code} (uncut : ¬ CutShort (plainValue l cs)) :
    plainValue l' cs = plainValue l cs := by
  unfold plainValue at uncut ⊢
  cases found : word? cs with
  | none => rfl
  | some w =>
    simp only [found] at uncut ⊢
    split at uncut
    · exact absurd ⟨_, rfl⟩ uncut
    · rename_i called
      rw [if_neg called, if_neg fun both => called ⟨by omega, both.2⟩]

/-! ## Values -/

mutual

theorem value_stays (policy : KeyPolicy) : (fuel l l' : Nat) → (cs : List Code) → l ≤ l' →
    ¬ CutShort (value policy fuel l cs) → value policy fuel l' cs = value policy fuel l cs
  | 0, _, _, _ => fun _ _ => rfl
  | fuel + 1, l, l', cs => by
    intro le uncut
    unfold value at uncut ⊢
    split at uncut
    · exact bind_stays uncut (mapError_stays le) fun _ _ => rfl
    · cases l with
      | zero => exact absurd ⟨_, rfl⟩ uncut
      | succ l =>
        obtain ⟨l', rfl⟩ : ∃ n, l' = n + 1 := ⟨l' - 1, by omega⟩
        dsimp only at uncut ⊢
        split at uncut
        · rfl
        · exact items_stays policy fuel _ _ _ _ (Nat.le_of_succ_le_succ le) uncut
    · cases l with
      | zero => exact absurd ⟨_, rfl⟩ uncut
      | succ l =>
        obtain ⟨l', rfl⟩ : ∃ n, l' = n + 1 := ⟨l' - 1, by omega⟩
        dsimp only at uncut ⊢
        split at uncut
        · exact bind_stays uncut (close_stays (Nat.le_of_succ_le_succ le) policy) fun _ _ => rfl
        · exact members_stays policy fuel _ _ _ _ (Nat.le_of_succ_le_succ le) uncut
    · exact plainValue_stays le uncut

theorem items_stays (policy : KeyPolicy) : (fuel l l' : Nat) → ∀ read cs, l ≤ l' →
    ¬ CutShort (items policy fuel l read cs) →
      items policy fuel l' read cs = items policy fuel l read cs
  | 0, _, _ => fun _ _ _ _ => rfl
  | fuel + 1, l, l' => by
    intro read cs le uncut
    rw [items] at uncut ⊢
    rw [items]
    refine bind_stays uncut (value_stays policy fuel l l' _ le) fun a uncut => ?_
    dsimp only at uncut ⊢
    split at uncut
    · rfl
    · exact items_stays policy fuel l l' _ _ le uncut
    · exact congrArg Except.error (metWithin_stays le uncut)

theorem members_stays (policy : KeyPolicy) : (fuel l l' : Nat) → ∀ read cs, l ≤ l' →
    ¬ CutShort (members policy fuel l read cs) →
      members policy fuel l' read cs = members policy fuel l read cs
  | 0, _, _ => fun _ _ _ _ => rfl
  | fuel + 1, l, l' => by
    intro read cs le uncut
    rw [members] at uncut ⊢
    rw [members]
    refine bind_stays uncut (mapError_stays le) fun a uncut => ?_
    refine bind_stays uncut (value_stays policy fuel l l' _ le) fun b uncut => ?_
    dsimp only at uncut ⊢
    split at uncut
    · exact bind_stays uncut (close_stays le policy) fun _ _ => rfl
    · exact members_stays policy fuel l l' _ _ le uncut
    · exact congrArg Except.error (metWithin_stays le uncut)

end

/-! ## Whole texts -/

theorem read_stays (policy : KeyPolicy) {text : List Code} (le : l ≤ l')
    (uncut : ¬ CutShort (read policy l text)) : read policy l' text = read policy l text :=
  bind_stays uncut (value_stays policy _ l l' _ le) fun _ _ => rfl

theorem readMarked_stays (policy : KeyPolicy) {text : List Code} (le : l ≤ l')
    (uncut : ¬ CutShort (readMarked policy l text)) :
    readMarked policy l' text = readMarked policy l text := by
  unfold readMarked at uncut ⊢
  split at uncut
  · rfl
  · exact read_stays policy le uncut

/-! ## Lists inside each other -/

/-- The text of an empty list or of an empty object. -/
def emptyText : Bracket → List Code
  | .list => [.char '[', .char ']']
  | .map => [.char '\x7b', .char '\x7d']

def emptyValue : Bracket → Document
  | .list => .list []
  | .map => .map []

/-- A value inside lists. -/
def nested : Nat → Document → Document
  | 0, d => d
  | n + 1, d => .list [nested n d]

/-- The text of an empty list or object inside lists, in front of the rest. -/
def nestedText (b : Bracket) : Nat → List Code → List Code
  | 0, rest => emptyText b ++ rest
  | n + 1, rest => .char '[' :: nestedText b n (.char ']' :: rest)

variable {b : Bracket} {policy : KeyPolicy}

theorem skipSpace_nestedText (b : Bracket) (n : Nat) (rest : List Code) :
    skipSpace (nestedText b n rest) = nestedText b n rest := by
  cases n <;> cases b <;> rfl

theorem length_nestedText (b : Bracket) (n : Nat) (rest : List Code) :
    (nestedText b n rest).length = 2 * n + 2 + rest.length := by
  induction n generalizing rest with
  | zero =>
    have two : (emptyText b).length = 2 := by cases b <;> rfl
    rw [nestedText, List.length_append, two, Nat.mul_zero, Nat.zero_add]
  | succ n ih =>
    rw [nestedText, List.length_cons, ih, List.length_cons]
    omega

/-- The reader goes into a list inside a list. -/
theorem value_list_nestedText (policy : KeyPolicy) (fuel levels : Nat) (b : Bracket) (n : Nat)
    (rest : List Code) :
    value policy (fuel + 1) (levels + 1) (.char '[' :: nestedText b n rest) =
      items policy fuel levels [] (nestedText b n rest) := by
  cases n <;> cases b <;> rfl

/-- Each list takes a level, and how the value inside is read is how all are. -/
theorem value_nestedText {levels : Nat} {r : Except ReadError Document}
    (inside : ∀ fuel rest, value policy (fuel + 1) levels (emptyText b ++ rest) = r.map (·, rest))
    (n fuel : Nat) (rest : List Code) :
    value policy (fuel + 2 * n + 1) (levels + n) (nestedText b n rest) =
      r.map fun d => (nested n d, rest) := by
  induction n generalizing rest with
  | zero => exact inside fuel rest
  | succ n ih =>
    rw [nestedText]
    show value policy (fuel + 2 * n + 2 + 1) (levels + n + 1) _ = _
    rw [value_list_nestedText, items, ih]
    cases r <;> rfl

/-! ### Where the innermost value is read -/

theorem value_emptyText_deep (policy : KeyPolicy) (b : Bracket) (fuel : Nat) (rest : List Code) :
    value policy (fuel + 1) 0 (emptyText b ++ rest) = .error (.tooDeep (.opening b)) := by
  cases b <;> rfl

theorem value_emptyText (policy : KeyPolicy) (b : Bracket) (fuel levels : Nat)
    (rest : List Code) :
    value policy (fuel + 1) (levels + 2) (emptyText b ++ rest) = .ok (emptyValue b, rest) := by
  cases b with
  | list => rfl
  | map => cases policy <;> rfl

/-- On the last level there is a call for every value but an object whose keys are looked at. -/
theorem value_emptyText_last (policy : KeyPolicy) (b : Bracket)
    (plain : b = .list ∨ policy = .keepLast) (fuel : Nat) (rest : List Code) :
    value policy (fuel + 1) 1 (emptyText b ++ rest) = .ok (emptyValue b, rest) := by
  rcases plain with rfl | rfl
  · rfl
  · cases b <;> rfl

theorem value_emptyText_unchecked (fuel : Nat) (rest : List Code) :
    value .rejectRepeated (fuel + 1) 1 (emptyText .map ++ rest) = .error (.tooDeep .function) :=
  rfl

end FieldProgram.Json

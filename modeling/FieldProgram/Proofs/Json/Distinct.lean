import FieldProgram.Proofs.Json.Grammar
import FieldProgram.Proofs.Json.Levels

/-!
# Documents without repeated keys

* `settle_of_keysDistinct`: where keys differ, every policy keeps the tree as it is, and the one
  that refuses repeated keys as long as every mapping leaves it a call;
* `settle_rejectRepeated_eq_ok_iff`: that policy accepts no other trees;
* `exists_settle_keepLast`: and the other accepts all;
* `SpellsText.spare`: a text that has a level to spare leaves the calls.
-/

namespace FieldProgram

namespace Document

mutual

/-- In no mapping anywhere in the document do two members have the same key. -/
def KeysDistinct : Document → Prop
  | .list items => KeysDistinctItems items
  | .map members => (members.map Prod.fst).Nodup ∧ KeysDistinctMembers members
  | _ => True

def KeysDistinctItems : List Document → Prop
  | [] => True
  | x :: xs => KeysDistinct x ∧ KeysDistinctItems xs

def KeysDistinctMembers : List (Text × Document) → Prop
  | [] => True
  | (_, v) :: ms => KeysDistinct v ∧ KeysDistinctMembers ms

end

theorem keysDistinctItems_iff {xs : List Document} :
    KeysDistinctItems xs ↔ ∀ x ∈ xs, KeysDistinct x := by
  induction xs with
  | nil => simp [KeysDistinctItems]
  | cons x xs ih => rw [KeysDistinctItems, ih, List.forall_mem_cons]

theorem keysDistinctMembers_iff {ms : List (Text × Document)} :
    KeysDistinctMembers ms ↔ ∀ m ∈ ms, KeysDistinct m.2 := by
  induction ms with
  | nil => simp [KeysDistinctMembers]
  | cons m ms ih =>
    obtain ⟨key, v⟩ := m
    rw [KeysDistinctMembers, ih, List.forall_mem_cons]

@[simp] theorem keysDistinct_null : KeysDistinct .null := trivial

@[simp] theorem keysDistinct_int (n : Int) : KeysDistinct (.int n) := trivial

@[simp] theorem keysDistinct_str (t : Text) : KeysDistinct (.str t) := trivial

@[simp] theorem keysDistinct_list {xs : List Document} :
    KeysDistinct (.list xs) ↔ ∀ x ∈ xs, KeysDistinct x := by
  rw [KeysDistinct, keysDistinctItems_iff]

@[simp] theorem keysDistinct_map {ms : List (Text × Document)} :
    KeysDistinct (.map ms) ↔ (ms.map Prod.fst).Nodup ∧ ∀ m ∈ ms, KeysDistinct m.2 := by
  rw [KeysDistinct, keysDistinctMembers_iff]

mutual

/-- With `levels` of brackets, every mapping anywhere in the document leaves one unused. -/
def Closes (levels : Nat) : Document → Prop
  | .list items => ClosesItems (levels - 1) items
  | .map members => 1 < levels ∧ ClosesMembers (levels - 1) members
  | _ => True

def ClosesItems (levels : Nat) : List Document → Prop
  | [] => True
  | x :: xs => Closes levels x ∧ ClosesItems levels xs

def ClosesMembers (levels : Nat) : List (Text × Document) → Prop
  | [] => True
  | (_, v) :: ms => Closes levels v ∧ ClosesMembers levels ms

end

theorem closesItems_iff {levels : Nat} {xs : List Document} :
    ClosesItems levels xs ↔ ∀ x ∈ xs, Closes levels x := by
  induction xs with
  | nil => simp [ClosesItems]
  | cons x xs ih => rw [ClosesItems, ih, List.forall_mem_cons]

theorem closesMembers_iff {levels : Nat} {ms : List (Text × Document)} :
    ClosesMembers levels ms ↔ ∀ m ∈ ms, Closes levels m.2 := by
  induction ms with
  | nil => simp [ClosesMembers]
  | cons m ms ih =>
    obtain ⟨key, v⟩ := m
    rw [ClosesMembers, ih, List.forall_mem_cons]

@[simp] theorem closes_list {levels : Nat} {xs : List Document} :
    Closes levels (.list xs) ↔ ∀ x ∈ xs, Closes (levels - 1) x := by
  rw [Closes, closesItems_iff]

@[simp] theorem closes_map {levels : Nat} {ms : List (Text × Document)} :
    Closes levels (.map ms) ↔ 1 < levels ∧ ∀ m ∈ ms, Closes (levels - 1) m.2 := by
  rw [Closes, closesMembers_iff]

end Document

namespace Json

theorem close_keepLast_of_nodup {levels : Nat} {ms : List (Text × Document)}
    (nodup : (ms.map Prod.fst).Nodup) : KeyPolicy.keepLast.close levels ms = .ok (.map ms) := by
  rw [KeyPolicy.close, Entries.ofPairs_of_nodup nodup]

theorem close_rejectRepeated_eq_ok_iff {levels : Nat} {ms : List (Text × Document)}
    {d : Document} : KeyPolicy.rejectRepeated.close levels ms = .ok d ↔
      0 < levels ∧ (ms.map Prod.fst).Nodup ∧ d = .map ms := by
  rw [← Entries.firstRepeated?_eq_none_iff, KeyPolicy.close, Nat.pos_iff_ne_zero]
  split
  · simp [*]
  · cases Entries.firstRepeated? (ms.map Prod.fst) with
    | some key => simp
    | none => simp [*, eq_comm]

/-! ## Levels to spare -/

theorem closes_of_plainValue {levels levels' : Nat} {cs rest : List Code} {v : Document}
    (h : plainValue levels cs = .ok (v, rest)) : v.Closes levels' := by
  rcases plainValue_cases h with ⟨w, word, -, rfl⟩ | ⟨n, -, value⟩
  · have named : ∀ w ∈ words, w.2.Closes levels' := by simp [words, Document.Closes]
    exact named w word
  · unfold Number.value at value
    split at value
    · obtain ⟨m, -, hm⟩ := Except.bind_eq_ok.mp value
      obtain rfl := Except.ok.inj hm
      trivial
    · obtain rfl := Except.ok.inj value
      trivial

mutual

/-- A value that is read with one level to spare leaves a call at each of its mappings. -/
theorem Spells.closes {levels : Nat} {cs rest : List Code} {d : Document} :
    Spells levels cs d rest → d.Closes (levels + 1)
  | .str _ => trivial
  | .emptyList _ => trivial
  | .list items => items.closes
  | .emptyMap _ => ⟨Nat.lt_add_of_pos_left (Nat.succ_pos _), trivial⟩
  | .map members => ⟨Nat.lt_add_of_pos_left (Nat.succ_pos _), members.closes⟩
  | .plain word => closes_of_plainValue word

theorem SpellsItems.closes {levels : Nat} {cs rest : List Code} {xs : List Document} :
    SpellsItems levels cs xs rest → Document.ClosesItems (levels + 1) xs
  | .last item _ => ⟨item.closes, trivial⟩
  | .more item _ items => ⟨item.closes, items.closes⟩

theorem SpellsMembers.closes {levels : Nat} {cs rest : List Code}
    {ms : List (Text × Document)} :
    SpellsMembers levels cs ms rest → Document.ClosesMembers (levels + 1) ms
  | .last _ value _ => ⟨value.closes, trivial⟩
  | .more _ value _ members => ⟨value.closes, members.closes⟩

end

/-! ## Policies -/

mutual

theorem settle_of_keysDistinct (policy : KeyPolicy) : (d : Document) → d.KeysDistinct →
    ∀ levels, (policy = .rejectRepeated → d.Closes levels) → policy.settle levels d = .ok d
  | .null, _ | .bool _, _ | .int _, _ | .float _, _ | .str _, _ => fun _ _ => rfl
  | .list xs, distinct => fun levels closes => by
    refine Except.map_eq_ok.mpr ⟨xs, settleItems_of_keysDistinct policy xs
      (Document.keysDistinct_list.mp distinct) _ fun rejects => ?_, rfl⟩
    exact Document.closes_list.mp (closes rejects)
  | .map ms, distinct => fun levels closes => by
    obtain ⟨nodup, distinct⟩ := Document.keysDistinct_map.mp distinct
    refine Except.bind_eq_ok.mpr ⟨ms, settleMembers_of_keysDistinct policy ms distinct _
      fun rejects => (Document.closes_map.mp (closes rejects)).2, ?_⟩
    cases policy with
    | keepLast => exact close_keepLast_of_nodup nodup
    | rejectRepeated =>
      have room := (Document.closes_map.mp (closes rfl)).1
      exact close_rejectRepeated_eq_ok_iff.mpr ⟨Nat.sub_pos_of_lt room, nodup, rfl⟩

theorem settleItems_of_keysDistinct (policy : KeyPolicy) : (xs : List Document) →
    (∀ x ∈ xs, x.KeysDistinct) → ∀ levels,
      (policy = .rejectRepeated → ∀ x ∈ xs, x.Closes levels) →
        policy.settleItems levels xs = .ok xs
  | [], _ => fun _ _ => rfl
  | x :: xs, distinct => fun levels closes => by
    obtain ⟨first, others⟩ := List.forall_mem_cons.mp distinct
    have closes := fun rejects => List.forall_mem_cons.mp (closes rejects)
    exact KeyPolicy.settleItems_cons_eq_ok.mpr ⟨x, xs,
      settle_of_keysDistinct policy x first levels fun rejects => (closes rejects).1,
      settleItems_of_keysDistinct policy xs others levels fun rejects => (closes rejects).2, rfl⟩

theorem settleMembers_of_keysDistinct (policy : KeyPolicy) : (ms : List (Text × Document)) →
    (∀ m ∈ ms, m.2.KeysDistinct) → ∀ levels,
      (policy = .rejectRepeated → ∀ m ∈ ms, m.2.Closes levels) →
        policy.settleMembers levels ms = .ok ms
  | [], _ => fun _ _ => rfl
  | (key, v) :: ms, distinct => fun levels closes => by
    obtain ⟨first, others⟩ := List.forall_mem_cons.mp distinct
    have closes := fun rejects => List.forall_mem_cons.mp (closes rejects)
    exact KeyPolicy.settleMembers_cons_eq_ok.mpr ⟨v, ms,
      settle_of_keysDistinct policy v first levels fun rejects => (closes rejects).1,
      settleMembers_of_keysDistinct policy ms others levels fun rejects => (closes rejects).2, rfl⟩

end

mutual

theorem keysDistinct_of_settle : (d : Document) → ∀ levels d',
    KeyPolicy.rejectRepeated.settle levels d = .ok d' →
      d.KeysDistinct ∧ d.Closes levels ∧ d' = d
  | .null | .bool _ | .int _ | .float _ | .str _ => by
    rintro levels d' ⟨⟩
    exact ⟨by simp [Document.KeysDistinct], by simp [Document.Closes], rfl⟩
  | .list xs => by
    intro levels d' h
    obtain ⟨ds, hds, rfl⟩ := Except.map_eq_ok.mp h
    obtain ⟨distinct, closes, rfl⟩ := keysDistinct_of_settleItems xs _ ds hds
    exact ⟨Document.keysDistinct_list.mpr distinct, Document.closes_list.mpr closes, rfl⟩
  | .map ms => by
    intro levels d' h
    obtain ⟨ds, hds, closed⟩ := Except.bind_eq_ok.mp h
    obtain ⟨distinct, closes, rfl⟩ := keysDistinct_of_settleMembers ms _ ds hds
    obtain ⟨room, nodup, rfl⟩ := close_rejectRepeated_eq_ok_iff.mp closed
    exact ⟨Document.keysDistinct_map.mpr ⟨nodup, distinct⟩,
      Document.closes_map.mpr ⟨Nat.lt_of_sub_pos room, closes⟩, rfl⟩

theorem keysDistinct_of_settleItems : (xs : List Document) → ∀ levels ds,
    KeyPolicy.rejectRepeated.settleItems levels xs = .ok ds →
      (∀ x ∈ xs, x.KeysDistinct) ∧ (∀ x ∈ xs, x.Closes levels) ∧ ds = xs
  | [] => by
    rintro levels ds ⟨⟩
    simp
  | x :: xs => by
    intro levels ds h
    obtain ⟨d, ds', first, others, rfl⟩ := KeyPolicy.settleItems_cons_eq_ok.mp h
    obtain ⟨distinct, closes, rfl⟩ := keysDistinct_of_settle x levels d first
    obtain ⟨distinct', closes', rfl⟩ := keysDistinct_of_settleItems xs levels ds' others
    exact ⟨List.forall_mem_cons.mpr ⟨distinct, distinct'⟩,
      List.forall_mem_cons.mpr ⟨closes, closes'⟩, rfl⟩

theorem keysDistinct_of_settleMembers : (ms : List (Text × Document)) → ∀ levels ds,
    KeyPolicy.rejectRepeated.settleMembers levels ms = .ok ds →
      (∀ m ∈ ms, m.2.KeysDistinct) ∧ (∀ m ∈ ms, m.2.Closes levels) ∧ ds = ms
  | [] => by
    rintro levels ds ⟨⟩
    simp
  | (key, v) :: ms => by
    intro levels ds h
    obtain ⟨d, ds', first, others, rfl⟩ := KeyPolicy.settleMembers_cons_eq_ok.mp h
    obtain ⟨distinct, closes, rfl⟩ := keysDistinct_of_settle v levels d first
    obtain ⟨distinct', closes', rfl⟩ := keysDistinct_of_settleMembers ms levels ds' others
    exact ⟨List.forall_mem_cons.mpr ⟨distinct, distinct'⟩,
      List.forall_mem_cons.mpr ⟨closes, closes'⟩, rfl⟩

end

theorem settle_rejectRepeated_eq_ok_iff {levels : Nat} {d d' : Document} :
    KeyPolicy.rejectRepeated.settle levels d = .ok d' ↔
      d.KeysDistinct ∧ d.Closes levels ∧ d' = d := by
  constructor
  · exact keysDistinct_of_settle d levels d'
  · rintro ⟨distinct, closes, rfl⟩
    exact settle_of_keysDistinct _ _ distinct levels fun _ => closes

mutual

theorem exists_settle_keepLast :
    (d : Document) → ∀ levels, ∃ d', KeyPolicy.keepLast.settle levels d = .ok d'
  | .null | .bool _ | .int _ | .float _ | .str _ => fun _ => ⟨_, rfl⟩
  | .list xs => fun levels => by
    obtain ⟨ds, hds⟩ := exists_settleItems_keepLast xs (levels - 1)
    exact ⟨_, Except.map_eq_ok.mpr ⟨ds, hds, rfl⟩⟩
  | .map ms => fun levels => by
    obtain ⟨ds, hds⟩ := exists_settleMembers_keepLast ms (levels - 1)
    exact ⟨_, Except.bind_eq_ok.mpr ⟨ds, hds, rfl⟩⟩

theorem exists_settleItems_keepLast :
    (xs : List Document) → ∀ levels, ∃ ds, KeyPolicy.keepLast.settleItems levels xs = .ok ds
  | [] => fun _ => ⟨_, rfl⟩
  | x :: xs => fun levels => by
    obtain ⟨d, hd⟩ := exists_settle_keepLast x levels
    obtain ⟨ds, hds⟩ := exists_settleItems_keepLast xs levels
    exact ⟨_, KeyPolicy.settleItems_cons_eq_ok.mpr ⟨d, ds, hd, hds, rfl⟩⟩

theorem exists_settleMembers_keepLast : (ms : List (Text × Document)) →
    ∀ levels, ∃ ds, KeyPolicy.keepLast.settleMembers levels ms = .ok ds
  | [] => fun _ => ⟨_, rfl⟩
  | (key, v) :: ms => fun levels => by
    obtain ⟨d, hd⟩ := exists_settle_keepLast v levels
    obtain ⟨ds, hds⟩ := exists_settleMembers_keepLast ms levels
    exact ⟨_, KeyPolicy.settleMembers_cons_eq_ok.mpr ⟨d, ds, hd, hds, rfl⟩⟩

end

/-! ## Whole texts -/

/-- What nests within some levels nests within more. -/
theorem SpellsText.mono {l l' : Nat} (le : l ≤ l') {text : List Code} {d : Document}
    (h : SpellsText l text d) : SpellsText l' text d := by
  obtain ⟨d', settled⟩ := exists_settle_keepLast d l
  have read := readMarked_eq_ok_iff.mpr ⟨d, h, settled⟩
  have uncut : ¬ CutShort (readMarked .keepLast l text) := read ▸ not_cutShort_ok d'
  obtain ⟨tree, spelled, -⟩ :=
    readMarked_eq_ok_iff.mp ((readMarked_stays .keepLast le uncut).trans read)
  rwa [h.unique spelled]

theorem SpellsText.spare {l l' : Nat} (spare : l < l') {text : List Code} {d : Document}
    (h : SpellsText l text d) : SpellsText l' text d ∧ d.Closes l' := by
  obtain ⟨m, rfl⟩ := Nat.exists_eq_succ_of_ne_zero (Nat.ne_zero_of_lt spare)
  have spelled := h.mono (Nat.le_of_lt_succ spare)
  have ⟨_, spells, _⟩ := spelled
  exact ⟨h.mono (Nat.le_of_lt spare), spells.closes⟩

end Json

end FieldProgram

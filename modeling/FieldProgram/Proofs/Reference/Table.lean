import FieldProgram.Reference.Table
import Mathlib.Data.List.Basic
import Mathlib.Data.List.Induction

/-!
# Names in a table of references

Of the references of one name the last is found, and the first says where the name stands among the
names. A table grows at its end, so what one more reference changes carries each induction.

* `lookup_eq_some_iff`: the reference that is found is the last of its name;
* `lookup_eq_none_iff`: none is found exactly for what is no name in the table;
* `names_append`, `names_pairwise`: the names are in the order of their first references;
* `resolves`: all of this about any table.
-/

namespace FieldProgram.ReferenceTable

variable {t : ReferenceTable} {name : Text} {r : Reference}

/-! ## Look-up -/

/-- The reference is at the index, and none of the name is behind it. -/
def IsLast (t : ReferenceTable) (name : Text) (i : Nat) (r : Reference) : Prop :=
  t.references[i]? = some r ∧ r.name = some name ∧
    ∀ j s, t.references[j]? = some s → s.name = some name → j ≤ i

theorem lookup_eq_some_iff_append :
    t.lookup name = some r ↔ ∃ before after, t.references = before ++ r :: after ∧
      r.name = some name ∧ ∀ s ∈ after, s.name ≠ some name := by
  rw [lookup, List.find?_eq_some_iff_append]
  constructor
  · rintro ⟨named, after, before, split, others⟩
    refine ⟨before.reverse, after.reverse, ?_, by simpa using named, fun s hs => ?_⟩
    · have split := congrArg List.reverse split
      simpa using split
    · simpa using others s (List.mem_reverse.mp hs)
  · rintro ⟨before, after, split, named, others⟩
    refine ⟨by simpa using named, after.reverse, before.reverse, by simp [split], fun s hs => ?_⟩
    simpa using others s (List.mem_reverse.mp hs)

theorem lookup_eq_some_iff : t.lookup name = some r ↔ ∃ i, t.IsLast name i r := by
  rw [lookup_eq_some_iff_append]
  constructor
  · rintro ⟨before, after, split, named, others⟩
    refine ⟨before.length, by simp [split], named, fun j s found named' => ?_⟩
    by_contra behind
    rw [split, List.getElem?_append_right (by omega), List.getElem?_cons,
      if_neg (by omega)] at found
    exact others s (List.mem_of_getElem? found) named'
  · rintro ⟨i, found, named, last⟩
    obtain ⟨lt, rfl⟩ := List.getElem?_eq_some_iff.mp found
    refine ⟨t.references.take i, t.references.drop (i + 1), by simp, named, fun s hs named' => ?_⟩
    obtain ⟨k, found'⟩ := List.mem_iff_getElem?.mp hs
    rw [List.getElem?_drop] at found'
    have := last _ s found' named'
    omega

example : lookup ⟨[⟨"[fp]", {}, none, some "x"⟩, ⟨"[ap]", {}, none, some "x"⟩]⟩ "x" =
    some ⟨"[ap]", {}, none, some "x"⟩ := rfl

/-! ## The names -/

/-- Where the first reference of a name is. -/
def firstIndex (t : ReferenceTable) (name : Text) : Nat :=
  (t.references.map Reference.name).idxOf (some name)

theorem names_append (rs : List Reference) (r : Reference) :
    names ⟨rs ++ [r]⟩ = r.name.elim (names ⟨rs⟩) (addName (names ⟨rs⟩)) := by
  cases named : r.name with
  | none => simp [names, named]
  | some name => simp [names, named]

theorem mem_addName {names : List Text} {added : Text} :
    name ∈ addName names added ↔ name ∈ names ∨ name = added := by
  unfold addName
  split
  · rename_i present
    constructor
    · exact .inl
    · rintro (h | rfl)
      · exact h
      · exact present
  · simp

theorem mem_names_iff : name ∈ t.names ↔ ∃ r ∈ t.references, r.name = some name := by
  obtain ⟨rs⟩ := t
  induction rs using List.reverseRecOn with
  | nil => simp [names]
  | append_singleton rs r ih =>
    rw [names_append]
    cases named : r.name with
    | none => simp [ih, or_and_right, exists_or, named]
    | some own => simp [mem_addName, ih, or_and_right, exists_or, named, eq_comm]

theorem mem_names_iff_mem_map :
    name ∈ t.names ↔ some name ∈ t.references.map Reference.name := by
  rw [mem_names_iff, List.mem_map]

theorem lookup_eq_none_iff : t.lookup name = none ↔ name ∉ t.names := by
  rw [mem_names_iff, lookup, List.find?_eq_none]
  simp

/-! ## Their order -/

section

variable {rs : List Reference}

theorem firstIndex_lt (present : name ∈ names ⟨rs⟩) : firstIndex ⟨rs⟩ name < rs.length := by
  have among := mem_names_iff_mem_map.mp present
  simpa [firstIndex] using List.idxOf_lt_length_of_mem among

/-- One more reference does not move the names that are there. -/
theorem firstIndex_append (present : name ∈ names ⟨rs⟩) (r : Reference) :
    firstIndex ⟨rs ++ [r]⟩ name = firstIndex ⟨rs⟩ name := by
  have among := mem_names_iff_mem_map.mp present
  rw [firstIndex, List.map_append, List.idxOf_append_of_mem among]
  rfl

/-- A new name stands at the end. -/
theorem firstIndex_append_of_new (fresh : name ∉ names ⟨rs⟩) (named : r.name = some name) :
    firstIndex ⟨rs ++ [r]⟩ name = rs.length := by
  have absent : some name ∉ rs.map Reference.name :=
    fun among => fresh (mem_names_iff_mem_map.mpr among)
  rw [firstIndex, List.map_append, List.idxOf_append_of_notMem absent]
  simp [named]

end

/-- The names in the order of their first references, so that none is there twice. -/
theorem names_pairwise (t : ReferenceTable) :
    t.names.Pairwise fun a b => t.firstIndex a < t.firstIndex b := by
  obtain ⟨rs⟩ := t
  induction rs using List.reverseRecOn with
  | nil => exact .nil
  | append_singleton rs r ih =>
    -- What is there stays in its place, so that only a new name has to be compared.
    have kept : (names ⟨rs⟩).Pairwise fun a b =>
        firstIndex ⟨rs ++ [r]⟩ a < firstIndex ⟨rs ++ [r]⟩ b := by
      refine ih.imp_of_mem fun {a b} ha hb before => ?_
      rwa [firstIndex_append ha, firstIndex_append hb]
    rw [names_append]
    cases named : r.name with
    | none => exact kept
    | some name =>
      show (addName (names ⟨rs⟩) name).Pairwise _
      unfold addName
      split
      · exact kept
      · rename_i fresh
        refine List.pairwise_append.mpr ⟨kept, List.pairwise_singleton .., fun a ha b hb => ?_⟩
        obtain rfl := List.mem_singleton.mp hb
        rw [firstIndex_append ha, firstIndex_append_of_new fresh named]
        exact firstIndex_lt ha

/-! ## Tables -/

/-- The table finds the last reference of each name, and lists each name once, in the order of the
first references. -/
structure Resolves (t : ReferenceTable) : Prop where
  last : ∀ name r, t.lookup name = some r ↔ ∃ i, t.IsLast name i r
  absent : ∀ name, t.lookup name = none ↔ name ∉ t.names
  named : ∀ name, name ∈ t.names ↔ ∃ r ∈ t.references, r.name = some name
  once : t.names.Nodup
  ordered : t.names.Pairwise fun a b => t.firstIndex a < t.firstIndex b

theorem resolves (t : ReferenceTable) : t.Resolves where
  last _ _ := lookup_eq_some_iff
  absent _ := lookup_eq_none_iff
  named _ := mem_names_iff
  once := t.names_pairwise.imp fun before same => by
    rw [same] at before
    exact Nat.lt_irrefl _ before
  ordered := t.names_pairwise

end FieldProgram.ReferenceTable

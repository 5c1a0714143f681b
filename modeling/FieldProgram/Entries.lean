/-!
# Mappings with an order

A mapping is a list of pairs of which the keys differ; the order of the list is the order of the
mapping. Putting a value under a key that is present keeps the place of the key.

* `lookup_put`: what is found after a value is put;
* `nodup_keys_ofPairs`: a mapping built from pairs has each key once;
* `firstRepeated?_eq_none_iff`: no key is repeated exactly when the keys differ.
-/

namespace FieldProgram.Entries

variable {κ α : Type} [BEq κ]

/-- Puts a value under a key, at the place of the key if it is present and at the end if not. -/
def put (key : κ) (value : α) : List (κ × α) → List (κ × α)
  | [] => [(key, value)]
  | (k, v) :: es => if k == key then (k, value) :: es else (k, v) :: put key value es

/-- The mapping that keeps, of the pairs with one key, the place of the first and the value of the
last. -/
def ofPairs (pairs : List (κ × α)) : List (κ × α) :=
  pairs.foldl (fun es p => put p.1 p.2 es) []

/-- The first element that also stands before, either in the list or in `seen`. -/
def repeatedFrom? (seen : List κ) : List κ → Option κ
  | [] => none
  | k :: ks => if seen.contains k then some k else repeatedFrom? (k :: seen) ks

/-- The first key that stands in the list for the second time. -/
def firstRepeated? (keys : List κ) : Option κ := repeatedFrom? [] keys

/-- Whether two mappings with distinct keys agree up to order, their values compared by `same`. -/
def agreeBy (same : α → α → Bool) (xs ys : List (κ × α)) : Bool :=
  xs.length == ys.length && xs.all fun x =>
    match ys.lookup x.1 with
    | some y => same x.2 y
    | none => false

/-! ## Lemmas -/

variable [LawfulBEq κ]

theorem lookup_put (key k : κ) (value : α) (es : List (κ × α)) :
    (put key value es).lookup k = if k == key then some value else es.lookup k := by
  induction es with
  | nil => cases h : k == key <;> simp [put, List.lookup_cons, h]
  | cons e es ih =>
    obtain ⟨k', v'⟩ := e
    cases hk : k == k' with
    | true =>
      obtain rfl := eq_of_beq hk
      by_cases h : k = key <;> simp [put, h]
    | false =>
      by_cases h : k' = key
      · subst h; simp [put, List.lookup_cons, hk]
      · simp [put, List.lookup_cons, h, hk, ih]

theorem keys_put (key : κ) (value : α) (es : List (κ × α)) :
    (put key value es).map Prod.fst =
      if key ∈ es.map Prod.fst then es.map Prod.fst else es.map Prod.fst ++ [key] := by
  induction es with
  | nil => simp [put]
  | cons e es ih =>
    obtain ⟨k', v'⟩ := e
    by_cases h : k' = key
    · simp [put, h]
    · have h' : key ≠ k' := fun e => h e.symm
      simp only [put, beq_iff_eq, h, if_false, List.map_cons, ih, List.mem_cons, h', false_or]
      split <;> simp

theorem put_of_not_mem {key : κ} {value : α} {es : List (κ × α)} (fresh : key ∉ es.map Prod.fst) :
    put key value es = es ++ [(key, value)] := by
  induction es with
  | nil => rfl
  | cons e es ih =>
    obtain ⟨k, v⟩ := e
    rw [List.map_cons, List.mem_cons, not_or] at fresh
    have other : (k == key) = false := by simpa using fun same => fresh.1 same.symm
    rw [put, other, ih fresh.2]
    rfl

theorem nodup_keys_put {key : κ} {value : α} {es : List (κ × α)}
    (h : (es.map Prod.fst).Nodup) : ((put key value es).map Prod.fst).Nodup := by
  rw [keys_put]
  split
  · exact h
  · rename_i hk
    exact List.nodup_append.2 ⟨h, by simp, fun a ha b hb e => hk (by simp_all)⟩

theorem nodup_keys_ofPairs (pairs : List (κ × α)) : ((ofPairs pairs).map Prod.fst).Nodup := by
  suffices ∀ es : List (κ × α), (es.map Prod.fst).Nodup →
      ((pairs.foldl (fun es p => put p.1 p.2 es) es).map Prod.fst).Nodup from this [] (by simp)
  induction pairs with
  | nil => exact fun _ h => h
  | cons p pairs ih => exact fun es h => ih _ (nodup_keys_put h)

/-- A mapping whose keys differ is built from its own pairs. -/
theorem ofPairs_of_nodup {pairs : List (κ × α)} (nodup : (pairs.map Prod.fst).Nodup) :
    ofPairs pairs = pairs := by
  suffices ∀ es : List (κ × α), ((es ++ pairs).map Prod.fst).Nodup →
      pairs.foldl (fun es p => put p.1 p.2 es) es = es ++ pairs from this [] nodup
  clear nodup
  induction pairs with
  | nil => simp
  | cons p pairs ih =>
    intro es nodup
    have fresh : p.1 ∉ es.map Prod.fst := by
      intro present
      rw [List.map_append, List.map_cons] at nodup
      exact (List.nodup_append.mp nodup).2.2 _ present _ (List.mem_cons_self ..) rfl
    rw [List.foldl_cons, put_of_not_mem fresh, ih _ (by simpa using nodup)]
    simp

theorem repeatedFrom?_eq_none_iff {seen keys : List κ} :
    repeatedFrom? seen keys = none ↔ keys.Nodup ∧ ∀ k ∈ keys, k ∉ seen := by
  induction keys generalizing seen with
  | nil => simp [repeatedFrom?]
  | cons k ks ih =>
    simp only [repeatedFrom?, List.contains_iff_mem, List.nodup_cons, List.mem_cons,
      forall_eq_or_imp]
    split
    · simp_all
    · rw [ih]
      constructor
      · rintro ⟨nodup, fresh⟩
        exact ⟨⟨fun hk => fresh k hk (by simp), nodup⟩, ‹_›,
          fun a ha hs => fresh a ha (by simp [hs])⟩
      · rintro ⟨⟨hk, nodup⟩, _, fresh⟩
        refine ⟨nodup, fun a ha => ?_⟩
        simp only [List.mem_cons, not_or]
        exact ⟨fun e => hk (e ▸ ha), fresh a ha⟩

theorem firstRepeated?_eq_none_iff {keys : List κ} :
    firstRepeated? keys = none ↔ keys.Nodup := by
  simp [firstRepeated?, repeatedFrom?_eq_none_iff]

end FieldProgram.Entries

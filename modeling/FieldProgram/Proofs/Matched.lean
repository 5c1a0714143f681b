import FieldProgram.Entries
import FieldProgram.Proofs.Related
import Mathlib.Data.List.Nodup
import Mathlib.Data.List.Perm.Subperm

/-!
# Lists related item by item in any order

`Matched R` relates two lists when the items of the one can be put into an order in which they
are related to those of the other by `R`. Of mappings with the same keys it says that the values
under each key are related.

* `Matched.flip`, `Matched.carry`: a match goes both ways, and what is said of the one list item by
  item is carried over to the other;
* `Matched.lookup`: what is found under a key of matched mappings;
* `Entries.agreeBy_of_matched`, `Entries.matched_of_agreeBy`: mappings agree if they match, and only
  then.
-/

namespace FieldProgram

variable {α β γ δ : Type}

/-- The items of the lists are related one to one, in whatever order they stand. -/
def Matched (R : α → β → Prop) (xs : List α) (ys : List β) : Prop :=
  ∃ zs, List.Forall₂ R xs zs ∧ zs.Perm ys

/-! ## Lists in order -/

/-- What the items of one list have is carried over to those of a related list. -/
theorem forall₂_carry {A : α → β → Prop} {R : α → γ → Prop} {S : β → δ → Prop} {B : γ → δ → Prop}
    (step : ∀ x y z, A x y → R x z → ∃ w, S y w ∧ B z w) {xs : List α} {ys : List β}
    {zs : List γ} (h : List.Forall₂ A xs ys) (related : List.Forall₂ R xs zs) :
    ∃ ws, List.Forall₂ S ys ws ∧ List.Forall₂ B zs ws := by
  induction h generalizing zs with
  | nil =>
    cases related
    exact ⟨[], .nil, .nil⟩
  | cons first _ ih =>
    obtain _ | ⟨first', related⟩ := related
    obtain ⟨w, hs, hb⟩ := step _ _ _ first first'
    obtain ⟨ws, rest, rest'⟩ := ih related
    exact ⟨w :: ws, .cons hs rest, .cons hb rest'⟩

/-- Items that `f` and `g` take to lists with the same elements do so as a whole. -/
theorem forall₂_flatMap_perm {R : α → β → Prop} {f : α → List γ} {g : β → List γ}
    (each : ∀ x y, R x y → (f x).Perm (g y)) {xs : List α} {ys : List β}
    (h : List.Forall₂ R xs ys) : (xs.flatMap f).Perm (ys.flatMap g) := by
  induction h with
  | nil => exact .nil
  | cons first _ ih =>
    rw [List.flatMap_cons, List.flatMap_cons]
    exact (each _ _ first).append ih

theorem forall₂_filter {R : α → β → Prop} {p : α → Bool} {q : β → Bool}
    (same : ∀ x y, R x y → p x = q y) {xs : List α} {ys : List β} (h : List.Forall₂ R xs ys) :
    List.Forall₂ R (xs.filter p) (ys.filter q) := by
  induction h with
  | nil => exact .nil
  | @cons x y _ _ first _ ih =>
    cases hq : q y with
    | true =>
      rw [List.filter_cons_of_pos ((same x y first).trans hq), List.filter_cons_of_pos hq]
      exact .cons first ih
    | false =>
      have hp : ¬ p x = true := by simp [same x y first, hq]
      rw [List.filter_cons_of_neg hp, List.filter_cons_of_neg (by simp [hq])]
      exact ih

/-! ## Lists in any order -/

namespace Matched

variable {R : α → β → Prop} {xs : List α} {ys : List β}

theorem imp {S : α → β → Prop} (h : Matched R xs ys) (weaker : ∀ x y, R x y → S x y) :
    Matched S xs ys := by
  obtain ⟨zs, related, perm⟩ := h
  exact ⟨zs, related.imp weaker, perm⟩

theorem imp_of_mem {S : α → β → Prop} (h : Matched R xs ys)
    (weaker : ∀ x ∈ xs, ∀ y, R x y → S x y) : Matched S xs ys := by
  obtain ⟨zs, related, perm⟩ := h
  exact ⟨zs, forall₂_imp_of_mem related weaker, perm⟩

theorem map {S : γ → δ → Prop} {f : α → γ} {g : β → δ} (h : Matched R xs ys)
    (each : ∀ x y, R x y → S (f x) (g y)) : Matched S (xs.map f) (ys.map g) := by
  obtain ⟨zs, related, perm⟩ := h
  refine ⟨zs.map g, ?_, perm.map g⟩
  rw [List.forall₂_map_left_iff, List.forall₂_map_right_iff]
  exact related.imp each

theorem flip (h : Matched R xs ys) : Matched (fun y x => R x y) ys xs := by
  obtain ⟨zs, related, perm⟩ := h
  obtain ⟨ws, related', perm'⟩ := List.perm_comp_forall₂ perm.symm related.flip
  exact ⟨ws, related', perm'⟩

/-- What the items of one list have is carried over to those of a matched list. -/
theorem carry {A : α → γ → Prop} {S : γ → δ → Prop} {B : β → δ → Prop} {zs : List γ}
    (h : Matched R xs ys) (step : ∀ x z y, A x z → R x y → ∃ w, S z w ∧ B y w)
    (described : List.Forall₂ A xs zs) : ∃ ws, Matched S zs ws ∧ List.Forall₂ B ys ws := by
  obtain ⟨us, related, perm⟩ := h
  obtain ⟨vs, hs, hb⟩ := forall₂_carry step described related
  obtain ⟨ws, hb', perm'⟩ := List.perm_comp_forall₂ perm.symm hb
  exact ⟨ws, ⟨vs, hs, perm'.symm⟩, hb'⟩

theorem length_eq (h : Matched R xs ys) : xs.length = ys.length := by
  obtain ⟨zs, related, perm⟩ := h
  exact related.length_eq.trans perm.length_eq

theorem exists_right (h : Matched R xs ys) : ∀ x ∈ xs, ∃ y ∈ ys, R x y := by
  obtain ⟨zs, related, perm⟩ := h
  intro x hx
  obtain ⟨z, hz, hxz⟩ := exists_right_of_forall₂ related x hx
  exact ⟨z, perm.mem_iff.mp hz, hxz⟩

theorem exists_left (h : Matched R xs ys) : ∀ y ∈ ys, ∃ x ∈ xs, R x y :=
  h.flip.exists_right

theorem flatMap_perm {f : α → List γ} {g : β → List γ} (h : Matched R xs ys)
    (each : ∀ x y, R x y → (f x).Perm (g y)) : (xs.flatMap f).Perm (ys.flatMap g) := by
  obtain ⟨zs, related, perm⟩ := h
  exact (forall₂_flatMap_perm each related).trans (perm.flatMap_right g)

theorem map_perm {f : α → γ} {g : β → γ} (h : Matched R xs ys)
    (each : ∀ x y, R x y → f x = g y) : (xs.map f).Perm (ys.map g) := by
  obtain ⟨zs, related, perm⟩ := h
  have same : xs.map f = zs.map g := by
    rw [← List.forall₂_eq_eq_eq, List.forall₂_map_left_iff, List.forall₂_map_right_iff]
    exact related.imp each
  rw [same]
  exact perm.map g

theorem filter {p : α → Bool} {q : β → Bool} (h : Matched R xs ys)
    (same : ∀ x y, R x y → p x = q y) : Matched R (xs.filter p) (ys.filter q) := by
  obtain ⟨zs, related, perm⟩ := h
  exact ⟨zs.filter q, forall₂_filter same related, perm.filter q⟩

end Matched

theorem matched_eq_iff {xs ys : List α} : Matched Eq xs ys ↔ xs.Perm ys := by
  simp [Matched]

/-! ## Mappings -/

namespace Entries

variable {κ : Type} {R : α → β → Prop} {xs : List (κ × α)} {ys : List (κ × β)}

/-- The keys are the same and the values are related. -/
def Alike (R : α → β → Prop) (x : κ × α) (y : κ × β) : Prop := x.1 = y.1 ∧ R x.2 y.2

theorem keys_perm (h : Matched (Alike R) xs ys) : (xs.map Prod.fst).Perm (ys.map Prod.fst) :=
  h.map_perm fun _ _ alike => alike.1

variable [BEq κ] [LawfulBEq κ]

theorem lookup_of_mem (nodup : (xs.map Prod.fst).Nodup) {x : κ × α} (h : x ∈ xs) :
    xs.lookup x.1 = some x.2 := by
  obtain ⟨before, after, rfl⟩ := List.append_of_mem h
  rw [List.map_append, List.map_cons] at nodup
  have fresh := (List.nodup_append.mp nodup).2.2
  refine List.lookup_eq_some_iff.mpr ⟨before, after, rfl, fun y hy => ?_⟩
  have other := fresh _ (List.mem_map_of_mem hy) _ (List.mem_cons_self ..)
  simpa using other.symm

theorem mem_of_lookup {k : κ} {a : α} (found : xs.lookup k = some a) : (k, a) ∈ xs := by
  obtain ⟨before, after, rfl, -⟩ := List.lookup_eq_some_iff.mp found
  simp

/-- Under a key stand related values, or none in either mapping. -/
theorem lookup_of_matched (h : Matched (Alike R) xs ys) (nodup : (xs.map Prod.fst).Nodup)
    (k : κ) : Option.Rel R (xs.lookup k) (ys.lookup k) := by
  have nodup' := (keys_perm h).nodup_iff.mp nodup
  cases hx : xs.lookup k with
  | some a =>
    obtain ⟨y, hy, rfl, related⟩ := h.exists_right _ (mem_of_lookup hx)
    rw [lookup_of_mem nodup' hy]
    exact .some related
  | none =>
    cases hy : ys.lookup k with
    | none => exact .none
    | some b =>
      obtain ⟨x, hx', rfl, -⟩ := h.exists_left _ (mem_of_lookup hy)
      cases hx.symm.trans (lookup_of_mem nodup hx')

theorem agreeBy_of_matched {same : α → α → Bool} {xs ys : List (κ × α)}
    (h : Matched (Alike fun a b => same a b = true) xs ys) (nodup : (xs.map Prod.fst).Nodup) :
    agreeBy same xs ys = true := by
  have nodup' := (keys_perm h).nodup_iff.mp nodup
  simp only [agreeBy, h.length_eq, beq_self_eq_true, Bool.true_and, List.all_eq_true]
  intro x hx
  obtain ⟨y, hy, key, related⟩ := h.exists_right x hx
  rw [key, lookup_of_mem nodup' hy]
  exact related

/-- Mappings agree only if they match: each key of the first is one of the second, and the second
has no more keys. -/
theorem matched_of_agreeBy {same : α → α → Bool} {xs ys : List (κ × α)}
    (agree : agreeBy same xs ys = true) (nodup : (xs.map Prod.fst).Nodup) :
    Matched (Alike fun a b => same a b = true) xs ys := by
  simp only [agreeBy, Bool.and_eq_true, beq_iff_eq, List.all_eq_true] at agree
  obtain ⟨length, found⟩ := agree
  have each : ∀ x ∈ xs, ∃ y, y ∈ ys ∧ Alike (fun a b => same a b = true) x y := by
    intro x hx
    have related := found x hx
    split at related
    · rename_i y hy
      exact ⟨(x.1, y), mem_of_lookup hy, rfl, related⟩
    · cases related
  obtain ⟨zs, related⟩ := exists_forall₂_iff.mpr each
  have alike := related.imp fun _ _ both => both.2
  have keys : (zs.map Prod.fst).Nodup := (keys_perm ⟨zs, alike, .refl zs⟩).nodup_iff.mp nodup
  have subset : zs ⊆ ys := by
    intro z hz
    obtain ⟨x, -, present, -⟩ := exists_left_of_forall₂ related z hz
    exact present
  have enough : ys.length ≤ zs.length := Nat.le_of_eq (length.symm.trans alike.length_eq)
  exact ⟨zs, alike, ((List.Nodup.of_map _ keys).subperm subset).perm_of_length_le enough⟩

theorem perm_of_agreeBy [BEq α] [LawfulBEq α] {xs ys : List (κ × α)}
    (agree : agreeBy (· == ·) xs ys = true) (nodup : (xs.map Prod.fst).Nodup) : xs.Perm ys := by
  refine matched_eq_iff.mp ((matched_of_agreeBy agree nodup).imp fun x y alike => ?_)
  exact Prod.ext alike.1 (eq_of_beq alike.2)

theorem agreeBy_of_perm [BEq α] [LawfulBEq α] {xs ys : List (κ × α)} (perm : xs.Perm ys)
    (nodup : (xs.map Prod.fst).Nodup) : agreeBy (· == ·) xs ys = true := by
  refine agreeBy_of_matched ((matched_eq_iff.mpr perm).imp fun x y same => ?_) nodup
  exact ⟨congrArg Prod.fst same, beq_iff_eq.mpr (congrArg Prod.snd same)⟩

/-- The first value of a key is the same in any order if the key has only one. -/
theorem lookup_of_perm {xs ys : List (κ × α)} (perm : xs.Perm ys) {k : κ}
    (only : ∀ a b, (k, a) ∈ xs → (k, b) ∈ xs → a = b) : xs.lookup k = ys.lookup k := by
  cases hx : xs.lookup k with
  | some a =>
    cases hy : ys.lookup k with
    | some b => rw [only a b (mem_of_lookup hx) (perm.mem_iff.mpr (mem_of_lookup hy))]
    | none =>
      have absent := List.lookup_eq_none_iff.mp hy _ (perm.mem_iff.mp (mem_of_lookup hx))
      simp at absent
  | none =>
    cases hy : ys.lookup k with
    | none => rfl
    | some b =>
      have absent := List.lookup_eq_none_iff.mp hx _ (perm.mem_iff.mpr (mem_of_lookup hy))
      simp at absent

end Entries

end FieldProgram

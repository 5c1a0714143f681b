import Mathlib.Data.List.Forall2

/-!
# Lists related item by item

* `exists_forall₂_iff`: a related list exists exactly when each item has a related one;
* `exists_left_of_forall₂`, `exists_right_of_forall₂`, `getElem?_of_forall₂`: what an item is
  related to;
* `pairwise_of_forall₂`: items that are apart because those related to them are;
* `mapM_eq_some_iff`: partial readings of the items one by one;
* `rel_cases`: the same for options.
-/

namespace FieldProgram

variable {α β : Type} {R : α → β → Prop} {xs : List α} {ys : List β}

theorem exists_forall₂_iff : (∃ ys, List.Forall₂ R xs ys) ↔ ∀ x ∈ xs, ∃ y, R x y := by
  induction xs with
  | nil => simp
  | cons x xs ih =>
    rw [List.forall_mem_cons, ← ih]
    constructor
    · rintro ⟨_, _ | ⟨hy, rest⟩⟩
      exact ⟨⟨_, hy⟩, _, rest⟩
    · rintro ⟨⟨y, hy⟩, ys, rest⟩
      exact ⟨y :: ys, .cons hy rest⟩

theorem exists_left_of_forall₂ (h : List.Forall₂ R xs ys) : ∀ y ∈ ys, ∃ x ∈ xs, R x y := by
  induction h with
  | nil => simp
  | cons first _ ih =>
    refine List.forall_mem_cons.mpr ⟨⟨_, List.mem_cons_self .., first⟩, fun y hy => ?_⟩
    obtain ⟨x, hx, related⟩ := ih y hy
    exact ⟨x, List.mem_cons_of_mem _ hx, related⟩

theorem exists_right_of_forall₂ (h : List.Forall₂ R xs ys) : ∀ x ∈ xs, ∃ y ∈ ys, R x y :=
  exists_left_of_forall₂ h.flip

/-- Related items are related otherwise if those of the first list make them so. -/
theorem forall₂_imp_of_mem {S : α → β → Prop} (h : List.Forall₂ R xs ys)
    (weaker : ∀ x ∈ xs, ∀ y, R x y → S x y) : List.Forall₂ S xs ys := by
  have each := (List.forall₂_and_left xs ys).mpr ⟨fun x hx => hx, h⟩
  exact each.imp fun x y ⟨hx, related⟩ => weaker x hx y related

/-- Items related whatever their indices. -/
theorem forall₂_zipIdx {start : Nat} :
    List.Forall₂ (fun p y => R p.1 y) (xs.zipIdx start) ys ↔ List.Forall₂ R xs ys := by
  rw [← List.forall₂_map_left_iff (f := Prod.fst), List.zipIdx_map_fst]

theorem getElem?_of_forall₂ (h : List.Forall₂ R xs ys) {i : Nat} {y : β}
    (found : ys[i]? = some y) :
    ∃ x, xs[i]? = some x ∧ R x y := by
  induction h generalizing i with
  | nil => cases found
  | cons first _ ih =>
    cases i with
    | zero =>
      cases found
      exact ⟨_, rfl, first⟩
    | succ i => exact ih found

/-- Items are apart pair by pair if those that they are related to are. -/
theorem pairwise_of_forall₂ {S : α → α → Prop} {T : β → β → Prop} (h : List.Forall₂ R xs ys)
    (apart : ys.Pairwise T) (carry : ∀ x x' y y', R x y → R x' y' → T y y' → S x x') :
    xs.Pairwise S := by
  induction h with
  | nil => exact .nil
  | cons first rest ih =>
    obtain ⟨head, tail⟩ := List.pairwise_cons.mp apart
    refine List.pairwise_cons.mpr ⟨fun x hx => ?_, ih tail⟩
    obtain ⟨y, hy, related⟩ := exists_right_of_forall₂ rest x hx
    exact carry _ _ _ _ first related (head y hy)

/-- Items that contribute nothing may be left out. -/
theorem flatMap_filter_of_nil {p : α → Bool} {f : α → List β}
    (none : ∀ x ∈ xs, p x = false → f x = []) : (xs.filter p).flatMap f = xs.flatMap f := by
  induction xs with
  | nil => rfl
  | cons x xs ih =>
    obtain ⟨first, others⟩ := List.forall_mem_cons.mp none
    rw [List.flatMap_cons, List.filter_cons]
    split
    · rw [List.flatMap_cons, ih others]
    · rename_i out
      rw [first (by simpa using out), ih others]
      rfl

/-- All items have a value exactly when each has. -/
theorem mapM_eq_some_iff {f : α → Option β} :
    xs.mapM f = some ys ↔ List.Forall₂ (fun x y => f x = some y) xs ys := by
  induction xs generalizing ys with
  | nil =>
    constructor
    · rintro ⟨⟩
      exact .nil
    · rintro ⟨⟩
      rfl
  | cons x xs ih =>
    rw [List.mapM_cons, Option.bind_eq_bind, Option.bind_eq_some_iff]
    constructor
    · rintro ⟨y, hy, rest⟩
      obtain ⟨zs, hzs, same⟩ := Option.bind_eq_some_iff.mp rest
      obtain rfl := Option.some.inj same
      exact .cons hy (ih.mp hzs)
    · rintro (_ | ⟨hy, rest⟩)
      exact ⟨_, hy, Option.bind_eq_some_iff.mpr ⟨_, ih.mpr rest, rfl⟩⟩

/-- Related options both hold related values, or none. -/
theorem rel_cases {a : Option α} {b : Option β} (h : Option.Rel R a b) :
    a = none ∧ b = none ∨ ∃ x y, a = some x ∧ b = some y ∧ R x y := by
  cases h with
  | none => exact .inl ⟨rfl, rfl⟩
  | some related => exact .inr ⟨_, _, rfl, rfl, related⟩

theorem rel_imp {S : α → β → Prop} {a : Option α} {b : Option β} (h : Option.Rel R a b)
    (weaker : ∀ x y, R x y → S x y) : Option.Rel S a b := by
  cases h with
  | none => exact .none
  | some related => exact .some (weaker _ _ related)

end FieldProgram

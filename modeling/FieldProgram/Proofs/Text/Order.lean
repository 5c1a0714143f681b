import FieldProgram.Text.Basic

/-!
# The order of texts

Texts are ordered by the numbers of their code points, and no two code points have one number. So
what is sorted by a text that occurs once does not depend on the order that it was in before.

* `codesLe_total`, `codesLe_trans`, `codesLe_antisymm`: the order is a linear one;
* `mergeSort_eq_of_perm`: sorting forgets the order.
-/

namespace FieldProgram

/-- Characters and halves of surrogate pairs have different numbers. -/
theorem Code.number_inj {a b : Code} : a.number = b.number ↔ a = b := by
  have apart (c : Char) (half : Fin 2048) : c.toNat ≠ firstHalf + half := by
    have valid : c.toNat < 0xd800 ∨ 0xdfff < c.toNat ∧ c.toNat < 0x110000 := c.valid
    have small := half.isLt
    unfold firstHalf
    omega
  refine ⟨fun same => ?_, congrArg number⟩
  cases a with
  | char c =>
    cases b with
    | char d => exact congrArg char (Char.toNat_inj.mp same)
    | lone half => exact absurd same (apart c half)
  | lone half =>
    cases b with
    | char d => exact absurd same.symm (apart d half)
    | lone half' => exact congrArg lone (Fin.ext (Nat.add_left_cancel same))

namespace Text

theorem codesLe_nil (cs : List Code) : codesLe [] cs = true := by
  simp [codesLe]

theorem codesLe_cons_iff {a b : Code} {as bs : List Code} :
    codesLe (a :: as) (b :: bs) = true ↔ a.number < b.number ∨ a = b ∧ codesLe as bs = true := by
  simp [codesLe]

theorem codesLe_total (as bs : List Code) : codesLe as bs = true ∨ codesLe bs as = true := by
  induction as generalizing bs with
  | nil => exact .inl (codesLe_nil bs)
  | cons a as ih =>
    cases bs with
    | nil => exact .inr (codesLe_nil _)
    | cons b bs =>
      rw [codesLe_cons_iff, codesLe_cons_iff]
      rcases Nat.lt_trichotomy a.number b.number with below | same | above
      · exact .inl (.inl below)
      · obtain rfl := Code.number_inj.mp same
        exact (ih bs).imp (fun le => .inr ⟨rfl, le⟩) fun le => .inr ⟨rfl, le⟩
      · exact .inr (.inl above)

theorem codesLe_trans {as bs cs : List Code} (h : codesLe as bs = true)
    (h' : codesLe bs cs = true) : codesLe as cs = true := by
  induction as generalizing bs cs with
  | nil => exact codesLe_nil cs
  | cons a as ih =>
    cases bs with
    | nil => cases h
    | cons b bs =>
      cases cs with
      | nil => cases h'
      | cons c cs =>
        rw [codesLe_cons_iff] at h h' ⊢
        rcases h with below | ⟨rfl, le⟩
        · rcases h' with below' | ⟨rfl, -⟩
          · exact .inl (Nat.lt_trans below below')
          · exact .inl below
        · rcases h' with below' | ⟨rfl, le'⟩
          · exact .inl below'
          · exact .inr ⟨rfl, ih le le'⟩

theorem codesLe_antisymm {as bs : List Code} (h : codesLe as bs = true)
    (h' : codesLe bs as = true) : as = bs := by
  induction as generalizing bs with
  | nil =>
    cases bs with
    | nil => rfl
    | cons b bs => cases h'
  | cons a as ih =>
    cases bs with
    | nil => cases h
    | cons b bs =>
      rw [codesLe_cons_iff] at h h'
      rcases h with below | ⟨rfl, le⟩
      · rcases h' with above | ⟨rfl, -⟩
        · exact absurd (Nat.lt_trans below above) (Nat.lt_irrefl _)
        · exact absurd below (Nat.lt_irrefl _)
      · rcases h' with above | ⟨-, le'⟩
        · exact absurd above (Nat.lt_irrefl _)
        · rw [ih le le']

theorem eq_of_le_of_le {a b : Text} (h : a.le b = true) (h' : b.le a = true) : a = b :=
  congrArg mk (codesLe_antisymm h h')

end Text

/-- Lists with the same elements are sorted to the same list if elements that come before each other
are equal. -/
theorem mergeSort_eq_of_perm {α : Type} {le : α → α → Bool} {xs ys : List α}
    (trans : ∀ a b c, le a b = true → le b c = true → le a c = true)
    (total : ∀ a b, (le a b || le b a) = true)
    (antisymm : ∀ a ∈ xs, ∀ b ∈ xs, le a b = true → le b a = true → a = b) (perm : xs.Perm ys) :
    xs.mergeSort le = ys.mergeSort le := by
  have sorted := List.pairwise_mergeSort trans total
  refine List.Perm.eq_of_pairwise (fun a b ha hb => ?_) (sorted xs) (sorted ys) ?_
  · exact antisymm a (List.mem_mergeSort.mp ha) b (perm.mem_iff.mpr (List.mem_mergeSort.mp hb))
  · exact (List.mergeSort_perm xs le).trans (perm.trans (List.mergeSort_perm ys le).symm)

end FieldProgram

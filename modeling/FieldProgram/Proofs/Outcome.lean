import Mathlib.Data.List.Forall2

/-!
# Computations that may fail

When a result comes from a computation put together from others, and which of the steps of a list
was the first to fail.

* `Except.mapM_eq_ok_iff`: a list of steps succeeds exactly when each of them does;
* `Except.mapM_eq_error_iff`: otherwise the first that fails says how;
* `FailsUnless.bind`, `FailsUnless.mapM`: computations with one way to fail, put together;
* `FailsUnless.related`: two of them that end alike.
-/

namespace FieldProgram.Except

variable {ε ε' α β : Type}

theorem isOk_iff {r : Except ε α} : r.isOk = true ↔ ∃ a, r = .ok a := by
  cases r <;> simp [Except.isOk, Except.toBool]

theorem toOption_eq_some_iff {r : Except ε α} {a : α} : r.toOption = some a ↔ r = .ok a := by
  cases r <;> simp [Except.toOption]

theorem bind_eq_ok {r : Except ε α} {next : α → Except ε β} {b : β} :
    (r >>= next) = .ok b ↔ ∃ a, r = .ok a ∧ next a = .ok b := by
  cases r <;> simp [bind, Except.bind]

theorem map_eq_ok {r : Except ε α} {g : α → β} {b : β} :
    r.map g = .ok b ↔ ∃ a, r = .ok a ∧ g a = b := by
  cases r <;> simp [Except.map]

theorem bind_eq_error {r : Except ε α} {next : α → Except ε β} {e : ε} :
    (r >>= next) = .error e ↔ r = .error e ∨ ∃ a, r = .ok a ∧ next a = .error e := by
  cases r <;> simp [bind, Except.bind]

theorem map_eq_error {r : Except ε α} {g : α → β} {e : ε} : r.map g = .error e ↔ r = .error e := by
  cases r <;> simp [Except.map]

theorem mapError_eq_ok {r : Except ε α} {g : ε → ε'} {a : α} :
    r.mapError g = .ok a ↔ r = .ok a := by
  cases r <;> simp [Except.mapError]

theorem mapM_cons (f : α → Except ε β) (x : α) (xs : List α) :
    (x :: xs).mapM f = (f x >>= fun y => (xs.mapM f).map (y :: ·)) := by
  rw [List.mapM_cons]
  cases f x <;> cases xs.mapM f <;> rfl

theorem mapM_eq_ok_iff {f : α → Except ε β} {xs : List α} {ys : List β} :
    xs.mapM f = .ok ys ↔ List.Forall₂ (fun x y => f x = .ok y) xs ys := by
  induction xs generalizing ys with
  | nil =>
    constructor
    · rintro ⟨⟩
      exact .nil
    · rintro ⟨⟩
      rfl
  | cons x xs ih =>
    rw [mapM_cons, bind_eq_ok]
    constructor
    · rintro ⟨y, hy, rest⟩
      obtain ⟨zs, hzs, rfl⟩ := map_eq_ok.mp rest
      exact .cons hy (ih.mp hzs)
    · rintro (_ | ⟨hy, rest⟩)
      exact ⟨_, hy, map_eq_ok.mpr ⟨_, ih.mpr rest, rfl⟩⟩

/-- Steps with the same results one by one. -/
theorem mapM_congr {γ : Type} {f : α → Except ε β} {g : γ → Except ε β} {xs : List α}
    {ys : List γ} (h : List.Forall₂ (fun x y => f x = g y) xs ys) : xs.mapM f = ys.mapM g := by
  induction h with
  | nil => rfl
  | cons first _ ih => rw [mapM_cons, mapM_cons, first, ih]

/-- Steps that undo what `g` did to the items of a list. -/
theorem mapM_map_eq_ok {f : β → Except ε α} {g : α → β} {xs : List α}
    (h : ∀ x ∈ xs, f (g x) = .ok x) : (xs.map g).mapM f = .ok xs := by
  rw [mapM_eq_ok_iff, List.forall₂_map_left_iff, List.forall₂_same]
  exact h

theorem mapM_eq_error_iff {f : α → Except ε β} {xs : List α} {e : ε} :
    xs.mapM f = .error e ↔ ∃ before x after, xs = before ++ x :: after ∧
      (∀ b ∈ before, ∃ y, f b = .ok y) ∧ f x = .error e := by
  induction xs with
  | nil => simp [pure, Except.pure]
  | cons x xs ih =>
    rw [mapM_cons]
    constructor
    · intro h
      cases hx : f x with
      | error e' =>
        rw [hx] at h
        cases h
        exact ⟨[], x, xs, rfl, by simp, hx⟩
      | ok y =>
        have rest : xs.mapM f = .error e := by
          cases hr : xs.mapM f with
          | error e' => simpa [hx, hr, bind, Except.bind, Except.map] using h
          | ok ys => simp [hx, hr, bind, Except.bind, Except.map] at h
        obtain ⟨before, z, after, rfl, hb, hz⟩ := ih.mp rest
        refine ⟨x :: before, z, after, rfl, ?_, hz⟩
        intro b hb'
        rcases List.mem_cons.mp hb' with rfl | hb'
        · exact ⟨y, hx⟩
        · exact hb b hb'
    · rintro ⟨before, z, after, split, hb, hz⟩
      cases before with
      | nil =>
        cases split
        rw [hz]
        rfl
      | cons b before =>
        cases split
        obtain ⟨y, hy⟩ := hb _ (List.mem_cons_self ..)
        have hb' : ∀ c ∈ before, ∃ y, f c = .ok y := fun c hc => hb c (List.mem_cons_of_mem _ hc)
        have rest := ih.mpr ⟨before, z, after, rfl, hb', hz⟩
        rw [hy, rest]
        rfl

/-! ## One way to fail -/

/-- The computation has a result exactly where `p` holds, and fails with the error where not. -/
inductive FailsUnless (p : Prop) (e : ε) : Except ε α → Prop
  | ok (a : α) (holds : p) : FailsUnless p e (.ok a)
  | error (fails : ¬p) : FailsUnless p e (.error e)

namespace FailsUnless

variable {p q : Prop} {e : ε} {r : Except ε α}

theorem exists_ok_iff (h : FailsUnless p e r) : (∃ a, r = .ok a) ↔ p := by
  cases h with
  | ok a holds => exact ⟨fun _ => holds, fun _ => ⟨a, rfl⟩⟩
  | error fails => exact ⟨by rintro ⟨a, ⟨⟩⟩, fun holds => absurd holds fails⟩

theorem eq_error (h : FailsUnless p e r) (fails : ¬p) : r = .error e := by
  cases h with
  | ok a holds => exact absurd holds fails
  | error _ => rfl

theorem of_iff (h : FailsUnless p e r) (same : p ↔ q) : FailsUnless q e r := by rwa [← propext same]

theorem map (h : FailsUnless p e r) (g : α → β) : FailsUnless p e (r.map g) := by
  cases h with
  | ok a holds => exact .ok (g a) holds
  | error fails => exact .error fails

theorem bind {next : α → Except ε β} (h : FailsUnless p e r)
    (rest : ∀ a, FailsUnless q e (next a)) : FailsUnless (p ∧ q) e (r >>= next) := by
  cases h with
  | error fails => exact .error fun both => fails both.1
  | ok a holds =>
    show FailsUnless (p ∧ q) e (next a)
    exact (rest a).of_iff (and_iff_right holds).symm

/-- What follows adds no way to fail where it always has a result. -/
theorem bind_ok {next : α → Except ε β} (h : FailsUnless p e r)
    (rest : ∀ a, ∃ b, next a = .ok b) : FailsUnless p e (r >>= next) := by
  cases h with
  | error fails => exact .error fails
  | ok a holds =>
    obtain ⟨b, hb⟩ := rest a
    show FailsUnless p e (next a)
    exact hb ▸ .ok b holds

/-- A step with a result adds no way to fail. -/
theorem after {next : α → Except ε β} (h : ∃ a, r = .ok a)
    (rest : ∀ a, FailsUnless q e (next a)) : FailsUnless q e (r >>= next) := by
  obtain ⟨a, rfl⟩ := h
  exact rest a

theorem mapM {f : α → Except ε β} {P : α → Prop} {xs : List α}
    (step : ∀ x ∈ xs, FailsUnless (P x) e (f x)) :
    FailsUnless (∀ x ∈ xs, P x) e (xs.mapM f) := by
  induction xs with
  | nil => exact .ok [] (by simp)
  | cons x xs ih =>
    obtain ⟨first, others⟩ := List.forall_mem_cons.mp step
    rw [mapM_cons, List.forall_mem_cons]
    exact first.bind fun y => (ih others).map (y :: ·)

end FailsUnless

/-! ## Two computations -/

/-- Both computations have results, which are related, or both fail alike. -/
inductive Related (R : α → β → Prop) : Except ε α → Except ε β → Prop
  | ok {a : α} {b : β} (results : R a b) : Related R (.ok a) (.ok b)
  | error (e : ε) : Related R (.error e) (.error e)

/-- Computations with one way to fail that have results at the same time. -/
theorem FailsUnless.related {R : α → β → Prop} {p q : Prop} {e : ε} {r : Except ε α}
    {r' : Except ε β} (h : FailsUnless p e r) (h' : FailsUnless q e r') (same : p ↔ q)
    (results : ∀ a b, r = .ok a → r' = .ok b → R a b) : Related R r r' := by
  cases h with
  | ok a holds =>
    cases h' with
    | ok b _ => exact .ok (results a b rfl rfl)
    | error fails => exact absurd (same.mp holds) fails
  | error fails =>
    cases h' with
    | ok b holds => exact absurd (same.mpr holds) fails
    | error _ => exact .error e

end FieldProgram.Except

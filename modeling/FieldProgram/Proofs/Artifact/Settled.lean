import FieldProgram.Artifact.Sections
import FieldProgram.Proofs.Outcome

/-!
# How a step of loading ends

`Settles` says of a step when it has a result, when it refuses the artifact, with a fault of which
area, and when it runs into a limit.

* `fail_eq`: an error that can be worded is a refusal;
* `Settles.of_refuses`: a step that never runs into the limit;
* `refuses_mapM`: a list of steps refuses with the fault of one of them.
-/

namespace FieldProgram

open Numeral

/-! ## Errors that can be worded -/

/-- There is a message about the error. -/
def LoadError.Worded (e : LoadError) : Prop := ∃ s, e.message = .ok s

theorem LoadError.worded_of {e : LoadError} (detail : ∃ x, e.detail = .ok x)
    (field : ∃ y, e.field = .ok y) : e.Worded := by
  obtain ⟨x, hx⟩ := detail
  obtain ⟨y, hy⟩ := field
  unfold Worded message
  rw [hx, hy]
  cases y <;> exact ⟨_, rfl⟩

/-- An error with a field has a message exactly where its detail has a text. -/
theorem LoadError.failsUnless_message {e : LoadError} {p : Prop} {l : Limit}
    (detail : Except.FailsUnless p l e.detail) (field : ∃ y, e.field = .ok y) :
    Except.FailsUnless p l e.message := by
  obtain ⟨y, hy⟩ := field
  unfold message
  refine detail.bind_ok fun x => ?_
  rw [hy]
  cases y <;> exact ⟨_, rfl⟩

theorem LoadError.fail_eq {α : Type} {e : LoadError} (worded : e.Worded) :
    (e.fail : Except LoadFailure α) = .error (.rejected e) := by
  obtain ⟨s, hs⟩ := worded
  rw [fail, hs]

/-- An error that cannot always be worded is a refusal, or the limit that is met. -/
theorem LoadError.fail_cases {α : Type} {e : LoadError} {p : Prop} {l : Limit}
    (h : Except.FailsUnless p l e.message) :
    p ∧ e.Worded ∧ (e.fail : Except LoadFailure α) = .error (.rejected e) ∨
      ¬ p ∧ (e.fail : Except LoadFailure α) = .error (.limit l) := by
  by_cases holds : p
  · have worded := h.exists_ok_iff.mpr holds
    exact .inl ⟨holds, worded, fail_eq worded⟩
  · exact .inr ⟨holds, by rw [fail, h.eq_error holds]⟩

theorem LoadError.fail_ne_ok {α : Type} (e : LoadError) (a : α) : e.fail ≠ .ok a := by
  unfold fail
  split <;> simp

namespace Artifact

variable {α β : Type}

/-! ## Refusals -/

/-- Whatever goes wrong with the step is a fault of the area. -/
def Refuses (area : LoadError.Area) (c : Except LoadFailure α) : Prop :=
  ∀ f, c = .error f → ∃ e, f = .rejected e ∧ e.area = area

theorem refuses_ok (area : LoadError.Area) (a : α) :
    Refuses area (.ok a : Except LoadFailure α) := by
  rintro f ⟨⟩

theorem refuses_fail {area : LoadError.Area} {e : LoadError} (worded : e.Worded)
    (same : e.area = area) : Refuses area (e.fail : Except LoadFailure α) := by
  intro f h
  rw [LoadError.fail_eq worded] at h
  exact ⟨e, (Except.error.inj h).symm, same⟩

theorem Refuses.map {area : LoadError.Area} {c : Except LoadFailure α} (h : Refuses area c)
    (g : α → β) : Refuses area (c.map g) := by
  intro f hf
  exact h f (Except.map_eq_error.mp hf)

/-- The first step that fails says how the list of steps does. -/
theorem refuses_mapM {area : LoadError.Area} {step : α → Except LoadFailure β} {xs : List α}
    (h : ∀ x ∈ xs, Refuses area (step x)) : Refuses area (xs.mapM step) := by
  intro f hf
  obtain ⟨before, x, after, rfl, -, hx⟩ := Except.mapM_eq_error_iff.mp hf
  exact h x (by simp) f hx

theorem refuses_checked {area : LoadError.Area} (error : List RecordFault → LoadError)
    (worded : ∀ faults, (error faults).Worded) (same : ∀ faults, (error faults).area = area)
    (c : Checked α) : Refuses area (checked error c) := by
  unfold checked
  split
  · exact refuses_fail (worded _) (same _)
  · exact refuses_ok _ _

theorem checked_eq_ok_iff {error : List RecordFault → LoadError} {c : Checked α} {a : α} :
    checked error c = .ok a ↔ c = .valid a := by
  cases c with
  | valid b => simp [checked, Checked.toExcept]
  | faulty f fs => simp [checked, Checked.toExcept, LoadError.fail_ne_ok]

/-! ## Steps -/

/-- The step has a result where it passes, runs into a limit where it overruns, and otherwise
refuses the artifact. -/
inductive Settles (passes overruns : Prop) (area : LoadError.Area) : Except LoadFailure α → Prop
  | accepted (a : α) (pass : passes) (short : ¬ overruns) : Settles passes overruns area (.ok a)
  | rejected (e : LoadError) (same : e.area = area) (stuck : ¬ passes) (short : ¬ overruns) :
    Settles passes overruns area (.error (.rejected e))
  | limited (l : Limit) (long : overruns) : Settles passes overruns area (.error (.limit l))

theorem Settles.of_refuses {passes : Prop} {area : LoadError.Area} {c : Except LoadFailure α}
    (accepts : (∃ a, c = .ok a) ↔ passes) (refuses : Refuses area c) :
    Settles passes False area c := by
  cases h : c with
  | ok a => exact .accepted a (accepts.mp ⟨a, h⟩) id
  | error f =>
    obtain ⟨e, rfl, same⟩ := refuses f h
    refine .rejected e same (fun pass => ?_) id
    obtain ⟨a, ha⟩ := accepts.mpr pass
    cases h.symm.trans ha

theorem Settles.of_iff {passes passes' overruns overruns' : Prop} {area : LoadError.Area}
    {c : Except LoadFailure α} (h : Settles passes overruns area c) (pass : passes ↔ passes')
    (overrun : overruns ↔ overruns') : Settles passes' overruns' area c := by
  rwa [← propext pass, ← propext overrun]

theorem Settles.map {passes overruns : Prop} {area : LoadError.Area} {c : Except LoadFailure α}
    (h : Settles passes overruns area c) (g : α → β) : Settles passes overruns area (c.map g) := by
  cases h with
  | accepted a pass short => exact .accepted (g a) pass short
  | rejected e same stuck short => exact .rejected e same stuck short
  | limited l long => exact .limited l long

end Artifact

end FieldProgram

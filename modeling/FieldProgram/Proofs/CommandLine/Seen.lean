import FieldProgram.CommandLine.Run

/-!
# What is seen of a run, and what it logs

A run is seen by its exit code and by what it prints, or by the failure that it crashes with. What
it logs is kept apart. It is logged whether the run crashes or not.

* `inspect_eq`: a run that inspects an artifact, as its log and the outcome of its steps;
* `run_log`: a run that does not crash holds the log.
-/

namespace FieldProgram.CommandLine

open Log

variable {host : Host} {files files' : Files} {o o' : Options} {s s' : Settings} {path : String}

/-! ## What is seen -/

/-- The exit code and what is printed, or the crash. -/
def seen (r : Except Crash Outcome) : Except Crash (Nat × Output) :=
  r.map fun outcome => (outcome.exit, outcome.output)

theorem seen_outcomeOf (log log' : List Record) (r : Except Stop Text) :
    seen (outcomeOf log r) = seen (outcomeOf log' r) := by
  cases r with
  | ok t => rfl
  | error s => cases s <;> rfl

theorem log_of_outcomeOf {log : List Record} {r : Except Stop Text} {outcome : Outcome}
    (h : outcomeOf log r = .ok outcome) : outcome.log = log := by
  cases r with
  | ok t =>
    obtain rfl := Except.ok.inj h
    rfl
  | error s =>
    cases s with
    | exit code =>
      obtain rfl := Except.ok.inj h
      rfl
    | crash c => cases h

/-! ## Steps of a run -/

/-- The outcome of the steps of a run. -/
def inspectOutcome (host : Host) (files : Files) (o : Options) (path : String) : Except Stop Text :=
  (settingsStep host files o).outcome >>= fun s => (inspectStep host files o path s).outcome

/-- What the steps log, at the level before the settings are known and then at the level that they
ask for. -/
def inspectLog (host : Host) (files : Files) (o : Options) (path : String) : List Record :=
  above (earlyLevel o.verbose) (settingsStep host files o).records ++
    match (settingsStep host files o).outcome with
    | .error _ => []
    | .ok s => above (lateLevel s.logging o.verbose) (inspectStep host files o path s).records

theorem inspect_eq :
    inspect host files o path =
      outcomeOf (inspectLog host files o path) (inspectOutcome host files o path) := by
  rw [inspect, inspectLog, inspectOutcome]
  dsimp only
  cases (settingsStep host files o).outcome with
  | error s =>
    dsimp only
    rw [List.append_nil]
    rfl
  | ok s => rfl

/-- What is logged for options. -/
def optionsLog (host : Host) (files : Files) (o : Options) : List Record :=
  match o.command, o.artifact with
  | some "inspect", some path => if path = "" then [] else inspectLog host files o path
  | _, _ => []

/-- What a run logs. -/
def logged (host : Host) (files : Files) (words : List String) : List Record :=
  match read words with
  | .options o => optionsLog host files o
  | _ => []

theorem runOptions_log {outcome : Outcome} (h : runOptions host files o = .ok outcome) :
    outcome.log = optionsLog host files o := by
  by_cases asked : ∃ path, o.command = some "inspect" ∧ o.artifact = some path
  · obtain ⟨path, command, artifact⟩ := asked
    have run_eq : runOptions host files o =
        if path = "" then .ok ⟨1, .help, []⟩ else inspect host files o path := by
      simp only [runOptions, command, artifact]
    have log_eq : optionsLog host files o =
        if path = "" then [] else inspectLog host files o path := by
      simp only [optionsLog, command, artifact]
    rw [run_eq] at h
    rw [log_eq]
    by_cases empty : path = ""
    · rw [if_pos empty] at h ⊢
      obtain rfl := Except.ok.inj h
      rfl
    · rw [if_neg empty] at h ⊢
      rw [inspect_eq] at h
      exact log_of_outcomeOf h
  · have unasked (path : String) (command : o.command = some "inspect") :
        o.artifact ≠ some path := fun artifact => asked ⟨path, command, artifact⟩
    have helped : runOptions host files o = .ok ⟨1, .help, []⟩ := by
      unfold runOptions
      split
      · rename_i path command artifact
        exact absurd artifact (unasked path command)
      · rfl
    obtain rfl := Except.ok.inj (helped.symm.trans h)
    unfold optionsLog
    split
    · rename_i path command artifact
      exact absurd artifact (unasked path command)
    · rfl

theorem run_log {words : List String} {outcome : Outcome} (h : run host files words = .ok outcome) :
    outcome.log = logged host files words := by
  unfold run at h
  unfold logged
  split at h
  · rename_i asked
    obtain rfl := Except.ok.inj h
    rw [asked]
  · rename_i asked
    obtain rfl := Except.ok.inj h
    rw [asked]
  · rename_i o asked
    rw [asked]
    exact runOptions_log h

/-! ## What decides what is seen -/

theorem seen_inspect_congr
    (h : inspectOutcome host files o path = inspectOutcome host files' o' path) :
    seen (inspect host files o path) = seen (inspect host files' o' path) := by
  rw [inspect_eq, inspect_eq, h]
  exact seen_outcomeOf ..

/-- Two options ask for the same command, artifact and form of output. -/
structure SameTask (o o' : Options) : Prop where
  command : o.command = o'.command
  artifact : o.artifact = o'.artifact
  json : o.json = o'.json

theorem printed_congr (json : o.json = o'.json) (p : Program) (entrypoint : Text) :
    printed o p entrypoint = printed o' p entrypoint := by
  rw [printed, json]
  rfl

/-- The steps behind the settings depend on the prime and the entry point that are in force, and on
the artifact. -/
theorem inspectStep_outcome_congr (json : o.json = o'.json)
    (prime : (primeStep o s).outcome = (primeStep o' s').outcome)
    (entrypoint : entrypointOf o s = entrypointOf o' s')
    (size : files.isTooLong (FilePath.ofString path) = files'.isTooLong (FilePath.ofString path))
    (loaded : ∀ entrypoint expected,
      (loadStep host files (FilePath.ofString path) entrypoint expected).outcome =
        (loadStep host files' (FilePath.ofString path) entrypoint expected).outcome) :
    (inspectStep host files o path s).outcome = (inspectStep host files' o' path s').outcome := by
  simp only [inspectStep, Run.outcome_bind, prime, entrypoint, printed_congr json]
  refine bind_congr fun expected => ?_
  unfold pathStep
  dsimp only
  rw [size]
  split
  · rfl
  · show (loadStep host files _ _ _).outcome >>= _ = (loadStep host files' _ _ _).outcome >>= _
    rw [loaded]

theorem seen_runOptions_congr (task : SameTask o o')
    (same : ∀ path, o.artifact = some path →
      inspectOutcome host files o path = inspectOutcome host files' o' path) :
    seen (runOptions host files o) = seen (runOptions host files' o') := by
  unfold runOptions
  rw [← task.command, ← task.artifact]
  split
  · rename_i artifact
    split
    · rfl
    · exact seen_inspect_congr (same _ artifact)
  · rfl

end FieldProgram.CommandLine

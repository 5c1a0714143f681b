import FieldProgram.CommandLine.Run
import FieldProgram.Proofs.Program.Printed

/-!
# Inspecting an artifact that loads

Of a loaded program all is printed but integers beyond the decimal limit. These can only be values
of symbols, which a summary shows for constants and the artifact for every symbol.

* `failsUnless_printed_text`, `failsUnless_printed_json`: what has to be short to be printed;
* `run_inspect_loaded`: the run of a command line whose artifact loads is what it prints.
-/

namespace FieldProgram

open Numeral

/-! ## Values in decimal -/

namespace Program

/-- The values of the constants have decimal texts. -/
def ShortConstants (p : Program) : Prop := ∀ c ∈ p.constants, Document.ShortInteger c.2.value

theorem mem_constants_iff {p : Program} {c : Text × Felt} :
    c ∈ p.constants ↔ ∃ i, (c.1, i) ∈ p.identifiers ∧ i.constant? = some c.2 := by
  rw [constants, List.mem_filterMap]
  constructor
  · rintro ⟨⟨name, i⟩, hi, h⟩
    obtain ⟨f, hf, rfl⟩ := Option.map_eq_some_iff.mp h
    exact ⟨i, hi, hf⟩
  · rintro ⟨i, hi, h⟩
    exact ⟨(c.1, i), hi, Option.map_eq_some_iff.mpr ⟨c.2, h, rfl⟩⟩

/-- Constants are symbols with a value. -/
theorem ShortValues.constants {p : Program} (h : p.ShortValues) : p.ShortConstants := by
  intro c hc
  obtain ⟨i, hi, constant⟩ := mem_constants_iff.mp hc
  unfold Identifier.constant? at constant
  split at constant
  · exact h (c.1, i) hi c.2 constant
  · cases constant

end Program

/-! ## What is printed -/

namespace CommandLine

open Log

variable {p : Program} {entrypoint : Text}

theorem failsUnless_mainText :
    Except.FailsUnless (∀ n ∈ p.main, Document.ShortInteger n) .writing
      (mainText p entrypoint) := by
  unfold mainText
  cases p.main with
  | none => exact .ok _ (by simp)
  | some n => exact ((Document.failsUnless_decimalText n).map Text.ofString).of_iff (by simp)

theorem failsUnless_constantLine (c : Text × Felt) :
    Except.FailsUnless (Document.ShortInteger c.2.value) .writing (constantLine c) :=
  (Document.failsUnless_decimalText c.2.value).map _

theorem failsUnless_summary (main : ∀ n ∈ p.main, Document.ShortInteger n)
    (pcs : ∀ entry ∈ p.hints, Document.ShortInteger entry.1) :
    Except.FailsUnless p.ShortConstants .writing (summary p entrypoint) := by
  have counters : ∀ pc ∈ hintPcs p, Document.ShortInteger pc := by
    intro pc hpc
    obtain ⟨entry, hentry, rfl⟩ := List.mem_map.mp (List.mem_mergeSort.mp hpc)
    exact pcs entry hentry
  have sorted : (∀ c ∈ sortedConstants p, Document.ShortInteger c.2.value) ↔ p.ShortConstants :=
    forall_congr' fun c => imp_congr_left List.mem_mergeSort
  have pcLines : Except.FailsUnless (∀ pc ∈ hintPcs p, Document.ShortInteger pc) .writing
      ((hintPcs p).mapM fun pc => (decimalText pc).map Text.ofString) :=
    .mapM fun pc _ => (Document.failsUnless_decimalText pc).map Text.ofString
  have constantLines : Except.FailsUnless p.ShortConstants .writing
      ((sortedConstants p).mapM constantLine) :=
    (Except.FailsUnless.mapM fun c _ => failsUnless_constantLine c).of_iff sorted
  refine .after (failsUnless_mainText.exists_ok_iff.mpr main) fun _ => ?_
  exact .after (pcLines.exists_ok_iff.mpr counters) fun _ => constantLines.map _

theorem failsUnless_printed_text {o : Options} (text : o.json = false)
    (main : ∀ n ∈ p.main, Document.ShortInteger n)
    (pcs : ∀ entry ∈ p.hints, Document.ShortInteger entry.1) :
    Except.FailsUnless p.ShortConstants .writing (printed o p entrypoint) := by
  rw [printed, text]
  exact (failsUnless_summary main pcs).map _

theorem printed_json {o : Options} (json : o.json = true)
    (pcs : ∀ entry ∈ p.hints, Document.ShortInteger entry.1) (entrypoint : Text) :
    printed o p entrypoint =
      (Json.write .indented p.artifact).map fun (s : String) => (s : Text) ++ ("\n" : Text) := by
  rw [printed, json, if_pos rfl, Program.encode_eq pcs]
  rfl

theorem failsUnless_printed_json {o : Options} (json : o.json = true)
    (pcs : ∀ entry ∈ p.hints, Document.ShortInteger entry.1) :
    Except.FailsUnless p.artifact.Short .writing (printed o p entrypoint) := by
  rw [printed_json json pcs]
  exact (Json.failsUnless_write .indented p.artifact).map _

/-! ## Words -/

/-- The word names a file: it is read as a path, and the path is not too long to be looked up. -/
structure IsPath (files : Files) (word : String) : Prop where
  positional : classify? word = some (.positional word)
  not_empty : word ≠ ""
  short : files.isTooLong (FilePath.ofString word) = false

variable {files : Files} {word : String}

theorem IsPath.not_separator (path : IsPath files word) : word ≠ "--" := by
  rintro rfl
  have unclear : classify? "--" = none := by decide
  cases unclear.symm.trans path.positional

theorem place_positional {as : List Arg} (h : word ≠ "--") (next : separators as = ([], as)) :
    place (.positional word :: as) = (some word, as) := by
  have front : separators (.positional word :: as) = ([], .positional word :: as) := rfl
  simp [place, front, next, Arg.text, h]

/-- The words of `inspect` that are no options, and options behind them. -/
def inspectArgs (word : String) (as : List Arg) : List Arg :=
  .positional "inspect" :: .positional word :: as

theorem fill_inspectArgs {as : List Arg} (h : word ≠ "--") (next : separators as = ([], as)) :
    State.fill {} (inspectArgs word as) =
      ({ options := { command := some "inspect", artifact := some word }, placed := true },
        as) := by
  have command : place (inspectArgs word as) = (some "inspect", .positional word :: as) :=
    place_positional (by decide) rfl
  rw [State.fill, command]
  dsimp only
  rw [place_positional h next]

theorem read_inspect (path : IsPath files word) :
    read ["inspect", word] = .options { command := some "inspect", artifact := some word } := by
  have command : classify? "inspect" = some (.positional "inspect") := by decide
  have words : classifyAll? ["inspect", word] = some (inspectArgs word []) := by
    simp [classifyAll?, path.not_separator, path.positional, command, inspectArgs]
  have none_left : separators [] = ([], []) := rfl
  rw [read, words]
  show State.finish {} (inspectArgs word []) = _
  simp [State.finish, fill_inspectArgs path.not_separator none_left]

theorem read_inspect_json (path : IsPath files word) :
    read ["inspect", word, "--json"] =
      .options { command := some "inspect", artifact := some word, json := true } := by
  have command : classify? "inspect" = some (.positional "inspect") := by decide
  have json : classify? "--json" = some (.option (.flag .json) .nothing) := by decide
  have words : classifyAll? ["inspect", word, "--json"] =
      some (inspectArgs word [.option (.flag .json) .nothing]) := by
    simp [classifyAll?, path.not_separator, path.positional, command, json, inspectArgs]
  have next : separators [.option (.flag .json) .nothing] =
      ([], [.option (.flag .json) .nothing]) := rfl
  have filled := fill_inspectArgs path.not_separator next
  have step : readFrom 4 {} (inspectArgs word [.option (.flag .json) .nothing]) =
      readFrom 3 (State.fill {} (inspectArgs word [.option (.flag .json) .nothing])).1
        (State.fill {} (inspectArgs word [.option (.flag .json) .nothing])).2 := rfl
  rw [read, words]
  dsimp only
  rw [show (inspectArgs word [.option (.flag .json) .nothing]).length + 1 = 4 from rfl, step,
    filled]
  rfl

/-! ## Runs -/

theorem pathStep_of_short {text : String}
    (short : files.isTooLong (FilePath.ofString text) = false) :
    pathStep files text = pure (FilePath.ofString text) := by
  simp [pathStep, short]

variable {host : Host}

/-- Words that ask to inspect an artifact are a run that inspects it. -/
theorem run_eq_inspect {words : List String} {o : Options} (asked : read words = .options o)
    (command : o.command = some "inspect") (artifact : o.artifact = some word)
    (not_empty : word ≠ "") : run host files words = inspect host files o word := by
  rw [run, asked]
  dsimp only
  rw [runOptions, command, artifact]
  exact if_neg not_empty

variable {p : Program}

theorem inspect_loaded {o : Options} (config : o.config = none) (prime : o.expectedPrime = none)
    (path : IsPath files word)
    (loaded : ((Artifact.Source.file (FilePath.ofString word)).load host.room.inner files
      (entrypointOf o {}) none).outcome = .ok p) :
    ∃ log, inspect host files o word =
      outcomeOf log (worded (printed o p (entrypointOf o {})) >>= printStep host).outcome := by
  have settings : settingsStep host files o = pure {} := by
    rw [settingsStep, config]
  have expected : primeStep o {} = pure none := by
    rw [primeStep, prime]
  have step :
      (loadStep host files (FilePath.ofString word) (entrypointOf o {}) none).outcome = .ok p := by
    simp [loadStep, loaded]
    rfl
  have outcome : (inspectStep host files o word {}).outcome =
      (worded (printed o p (entrypointOf o {})) >>= printStep host).outcome := by
    rw [inspectStep, expected, pathStep_of_short path.short]
    show ((loadStep host files (FilePath.ofString word) (entrypointOf o {}) none) >>= fun p =>
      worded (printed o p (entrypointOf o {})) >>= printStep host).outcome = _
    rw [Run.outcome_bind, step]
    rfl
  refine ⟨above (earlyLevel o.verbose) [] ++
    above (lateLevel {} o.verbose) (inspectStep host files o word {}).records, ?_⟩
  rw [inspect, settings]
  show outcomeOf _ (inspectStep host files o word {}).outcome = _
  rw [outcome]
  rfl

/-- Without settings, a run whose artifact loads ends in what it prints. -/
theorem run_inspect_loaded {words : List String} {o : Options} (h : read words = .options o)
    (command : o.command = some "inspect") (artifact : o.artifact = some word)
    (config : o.config = none) (prime : o.expectedPrime = none) (path : IsPath files word)
    (loaded : ((Artifact.Source.file (FilePath.ofString word)).load host.room.inner files
      (entrypointOf o {}) none).outcome = .ok p) :
    ∃ log, run host files words =
      outcomeOf log (worded (printed o p (entrypointOf o {})) >>= printStep host).outcome := by
  rw [run_eq_inspect h command artifact path.not_empty]
  exact inspect_loaded config prime path loaded

end CommandLine

end FieldProgram

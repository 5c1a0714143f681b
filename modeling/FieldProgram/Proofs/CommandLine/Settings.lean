import FieldProgram.Proofs.CommandLine.Inspect
import FieldProgram.Proofs.Settings.Load

/-!
# Running with a file of settings

A command line that names a file of settings ends with an exit code of its own where the file is
refused. Where there is no message to refuse it with, the run crashes.

* `InspectsWith.run_error`: how a run without settings ends;
* `load_settings_file`: what the octets of a file decide about its settings and about the run.
-/

namespace FieldProgram.CommandLine

open Log Settings

variable {host : Host} {files : Files} {words : List String} {path : FilePath}

/-- What stops a run without settings. -/
def settingsStop : SettingsFailure → Stop
  | .rejected e =>
    match e.message with
    | .ok _ => .exit 2
    | .error l => .crash (.limit l)
  | .undecodable e => .crash (.undecodable e)
  | .value f => .crash (.value f)
  | .limit l => .crash (.limit l)

/-- How the settings of a file are come by. -/
theorem settingsStep_outcome {o : Options} {text : String} (config : o.config = some text)
    (not_empty : text ≠ "") : (settingsStep host files o).outcome =
      if files.isTooLong (FilePath.ofString text) then
        .error (.crash (.longPath (FilePath.ofString text)))
      else
        (Settings.load host.room.inner files (FilePath.ofString text)).mapError settingsStop := by
  rw [settingsStep, config]
  split
  · rename_i h
    cases h
  · rename_i h
    exact absurd (Option.some.inj h) not_empty
  · rename_i t _ h
    obtain rfl := Option.some.inj h
    rw [Run.outcome_bind]
    unfold pathStep
    dsimp only
    split
    · rfl
    · simp only [pure, Run.ofExcept, bind, Except.bind]
      cases Settings.load host.room.inner files (FilePath.ofString text) with
      | ok s => rfl
      | error f =>
        cases f with
        | rejected e =>
          simp only [Except.mapError, settingsStop]
          cases e.message <;> rfl
        | _ => rfl

end FieldProgram.CommandLine

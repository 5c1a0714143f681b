import FieldProgram.Artifact.Source
import FieldProgram.CommandLine.Options
import FieldProgram.CommandLine.Summary
import FieldProgram.Json.Writer
import FieldProgram.Settings.Source

/-!
# Running the command line

The command loads an artifact and prints a summary of it, or the artifact itself written anew.
Settings come from a file; options count more. What is logged depends on the level: that of the
options until the settings are known, and that of both from then on. A `Host` is what a run depends
on beside its words and the files: how deep its calls may go, and what its output can show.
-/

namespace FieldProgram.CommandLine

open Numeral Log

/-- Where a command line runs. -/
structure Host where
  /-- What is left of the depth of calls to a run. -/
  room : Room
  /-- Whether the encoding of the output has a code point. -/
  takes : Code → Bool
  takes_ascii : ∀ c : Char, c.toNat < 128 → takes (.char c) = true

/-- A host with an output in Unicode, in which a half of a surrogate pair has no place. -/
def Host.standard : Host where
  room := .standard
  takes c := c.char?.isSome
  takes_ascii _ _ := rfl

/-- What is printed. -/
inductive Output
  | help
  | text (t : Text)
  deriving DecidableEq, Repr

/-- How a run ends: an exit code, what is printed and what is logged. -/
structure Outcome where
  exit : Nat
  output : Output
  log : List Record
  deriving DecidableEq, Repr

/-- A failure that a run does not turn into an exit code. -/
inductive Crash
  | limit (l : Limit)
  | word (e : WordError)
  | undecodable (e : Text.DecodeError)
  | value (f : Yaml.ValueFault)
  /-- A path that is too long to be looked up. -/
  | longPath (path : FilePath)
  /-- A code point that the output cannot show. -/
  | unencodable (c : Code)

/-- The wording of a failure. -/
def Crash.message : Crash → String
  | .limit l => l.message
  | .word e =>
    match e.text with
    | .ok s => s
    | .error l => l.message
  | .undecodable e => e.message
  | .value f => f.message
  | .longPath path => "[Errno 36] File name too long: " ++ Text.quoted path.text
  | .unencodable c => "can't encode character " ++ Text.quoted ⟨[c]⟩

/-! ## Steps -/

/-- A step has a result, or it ends the run with an exit code or a crash. -/
inductive Stop
  | exit (code : Nat)
  | crash (c : Crash)

abbrev Step (α : Type) := Run Stop α

/-- Ends the run. -/
def stop {α : Type} (s : Stop) : Step α := Run.ofExcept (.error s)

/-- Logs an error and ends the run with an exit code. -/
def refuse {α : Type} (code : Nat) (message : Text) : Step α := do
  Run.note .error .root message
  stop (.exit code)

/-- A text that crashes the run where a limit is met on the way to it. -/
def worded {α : Type} : Except Limit α → Step α
  | .ok a => pure a
  | .error l => stop (.crash (.limit l))

/-- The level before the settings are known. -/
def earlyLevel (verbose : Bool) : Level := if verbose then .debug else .info

/-- The level that settings and options ask for. -/
def lateLevel (settings : LogSettings) (verbose : Bool) : Level :=
  if verbose || settings.verbose then .debug else (Level.ofName? settings.level).getD .info

/-- The path of a text, which must not be too long. -/
def pathStep (files : Files) (text : String) : Step FilePath :=
  let path := FilePath.ofString text
  if files.isTooLong path then stop (.crash (.longPath path)) else pure path

/-- The settings in the file that the options name, or the defaults. -/
def settingsStep (host : Host) (files : Files) (o : Options) : Step Settings :=
  match o.config with
  | none => pure {}
  | some "" => pure {}
  | some text => do
    let path ← pathStep files text
    match Settings.load host.room.inner files path with
    | .ok s =>
      Run.note .info .root ("Configuration " ++ text ++ " validated successfully")
      return s
    | .error (.rejected e) =>
      let message ← worded e.message
      refuse 2 ("Config validation failed:\n" ++ message)
    | .error (.undecodable e) => stop (.crash (.undecodable e))
    | .error (.value f) => stop (.crash (.value f))
    | .error (.limit l) => stop (.crash (.limit l))

/-- The prime that the artifact must have: that of the options, or else of the settings. -/
def primeStep (o : Options) (settings : Settings) : Step (Option Int) :=
  match o.expectedPrime with
  | none => pure settings.expectedPrime
  | some "" => pure settings.expectedPrime
  | some s =>
    match integerOfText s with
    | .ok p => pure (some p)
    | .error fault => refuse 1 ("Invalid --expected-prime: " ++ fault.message)

/-- The entry point of the options, or else of the settings. -/
def entrypointOf (o : Options) (settings : Settings) : Text :=
  match o.entrypoint with
  | none => settings.entrypoint
  | some s => if s = "" then settings.entrypoint else s

/-- Loads the artifact. -/
def loadStep (host : Host) (files : Files) (path : FilePath) (entrypoint : Text)
    (prime : Option Int) : Step Program :=
  let loading := (Artifact.Source.file path).load host.room.inner files entrypoint prime
  let rest : Step Program := match loading.outcome with
    | .ok p => pure p
    | .error (.rejected e) => do
      let message ← worded e.message
      refuse 3 ("Failed to load program: " ++ message)
    | .error (.word e) => stop (.crash (.word e))
    | .error (.limit l) => stop (.crash (.limit l))
  ⟨loading.records ++ rest.records, rest.outcome⟩

/-- What is printed of a program. -/
def printed (o : Options) (p : Program) (entrypoint : Text) : Except Limit Text := do
  if o.json then return (← Json.write .indented (← p.encode)) ++ "\n"
  else return Text.intercalate "\n" (← summary p entrypoint) ++ "\n"

/-- Prints a text, which the output must be able to show. -/
def printStep (host : Host) (t : Text) : Step Text :=
  match t.codes.find? fun c => !host.takes c with
  | none => pure t
  | some c => stop (.crash (.unencodable c))

/-- The steps behind the settings. -/
def inspectStep (host : Host) (files : Files) (o : Options) (path : String) (settings : Settings) :
    Step Text := do
  let prime ← primeStep o settings
  let entrypoint := entrypointOf o settings
  let path ← pathStep files path
  let p ← loadStep host files path entrypoint prime
  let t ← worded (printed o p entrypoint)
  printStep host t

/-! ## Runs -/

/-- The outcome of the last step, with the log of all. -/
def outcomeOf (log : List Record) : Except Stop Text → Except Crash Outcome
  | .ok t => .ok ⟨0, .text t, log⟩
  | .error (.exit code) => .ok ⟨code, .text "", log⟩
  | .error (.crash c) => .error c

/-- Inspects an artifact. -/
def inspect (host : Host) (files : Files) (o : Options) (path : String) : Except Crash Outcome :=
  let first := settingsStep host files o
  let early := above (earlyLevel o.verbose) first.records
  match first.outcome with
  | .error s => outcomeOf early (.error s)
  | .ok settings =>
    let rest := inspectStep host files o path settings
    outcomeOf (early ++ above (lateLevel settings.logging o.verbose) rest.records) rest.outcome

/-- What options ask for. The only command is `inspect`, and it needs an artifact. -/
def runOptions (host : Host) (files : Files) (o : Options) : Except Crash Outcome :=
  match o.command, o.artifact with
  | some "inspect", some path =>
    if path = "" then .ok ⟨1, .help, []⟩ else inspect host files o path
  | _, _ => .ok ⟨1, .help, []⟩

/-- Runs a command line. -/
def run (host : Host) (files : Files) (words : List String) : Except Crash Outcome :=
  match read words with
  | .help => .ok ⟨0, .help, []⟩
  | .misuse => .ok ⟨2, .text "", []⟩
  | .options o => runOptions host files o

end FieldProgram.CommandLine

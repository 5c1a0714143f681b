import FieldProgram.Proofs.CommandLine.Options
import FieldProgram.Proofs.CommandLine.Reload

/-!
# Runs that expect a prime

A run prints an artifact only if each of its steps has a result, and then the prime of the artifact
is the one that was expected. An empty value of the option does not count: it leaves it to the
settings to say what is expected.

* `run_eq_text_iff`: when a run prints a text;
* `run_expected_prime`: what the prime of the artifact is then, if the words name one.
-/

namespace FieldProgram

open Log

namespace Artifact

variable {d : Document} {room : Room} {files : Files} {path : FilePath} {entrypoint : Text}
  {expected : Option Int} {p : Program}

/-- What is expected of the prime adds a condition and nothing else. -/
theorem loads_expecting_iff : Loads d entrypoint expected p ↔
    Loads d entrypoint none p ∧ ∀ q, expected = some q → q = p.prime := by
  constructor
  · intro h
    exact ⟨{ h with expected := by simp }, h.expected⟩
  · rintro ⟨h, same⟩
    exact { h with expected := same }

theorem load_expecting_iff :
    ((Source.file path).load room files entrypoint expected).outcome = .ok p ↔
      ((Source.file path).load room files entrypoint none).outcome = .ok p ∧
        ∀ q, expected = some q → q = p.prime := by
  simp only [load_file_eq_ok_iff]
  constructor
  · rintro ⟨octets, found, d, document, loads⟩
    obtain ⟨loads, same⟩ := loads_expecting_iff.mp loads
    exact ⟨⟨octets, found, d, document, loads⟩, same⟩
  · rintro ⟨⟨octets, found, d, document, loads⟩, same⟩
    exact ⟨octets, found, d, document, loads_expecting_iff.mpr ⟨loads, same⟩⟩

end Artifact

namespace CommandLine

variable {host : Host} {files : Files} {o : Options} {α β : Type}

/-! ## Exit codes -/

/-- A step that ends the run does not end it as if all went well. -/
def Refuses (r : Step α) : Prop := r.outcome ≠ .error (.exit 0)

theorem refuses_bind {r : Step α} {next : α → Step β} (h : Refuses r)
    (rest : ∀ a, Refuses (next a)) : Refuses (r >>= next) := by
  rw [Refuses, Run.outcome_bind]
  cases hr : r.outcome with
  | error s =>
    rintro ⟨⟩
    exact h hr
  | ok a => exact rest a

theorem refuses_pure (a : α) : Refuses (pure a) := by
  rintro ⟨⟩

theorem refuses_note (level : Level) (logger : Logger) (message : Text) :
    Refuses (Run.note level logger message : Step Unit) := by
  rintro ⟨⟩

theorem refuses_refuse {code : Nat} (h : code ≠ 0) (message : Text) :
    Refuses (refuse code message : Step α) :=
  refuses_bind (refuses_note _ _ _) fun _ => by
    rintro ⟨⟩
    exact h rfl

theorem refuses_crash (c : Crash) : Refuses (stop (.crash c) : Step α) := by
  rintro ⟨⟩

theorem refuses_worded (r : Except Limit α) : Refuses (worded r) := by
  cases r with
  | ok a => exact refuses_pure a
  | error l => exact refuses_crash _

theorem refuses_printStep (t : Text) : Refuses (printStep host t) := by
  unfold printStep
  split
  · exact refuses_pure _
  · exact refuses_crash _

theorem refuses_pathStep (text : String) : Refuses (pathStep files text) := by
  unfold pathStep
  dsimp only
  split
  · exact refuses_crash _
  · exact refuses_pure _

theorem refuses_settingsStep : Refuses (settingsStep host files o) := by
  unfold settingsStep
  split
  · exact refuses_pure _
  · exact refuses_pure _
  · refine refuses_bind (refuses_pathStep _) fun path => ?_
    split
    · exact refuses_bind (refuses_note _ _ _) fun _ => refuses_pure _
    · exact refuses_bind (refuses_worded _) fun _ => refuses_refuse (by decide) _
    all_goals exact refuses_crash _

theorem refuses_primeStep (settings : Settings) : Refuses (primeStep o settings) := by
  unfold primeStep
  split
  · exact refuses_pure _
  · exact refuses_pure _
  · split
    · exact refuses_pure _
    · exact refuses_refuse (by decide) _

theorem refuses_loadStep (path : FilePath) (entrypoint : Text) (expected : Option Int) :
    Refuses (loadStep host files path entrypoint expected) := by
  unfold loadStep
  dsimp only
  split
  · exact refuses_pure _
  · exact refuses_bind (refuses_worded _) fun _ => refuses_refuse (by decide) _
  · exact refuses_crash _
  · exact refuses_crash _

theorem refuses_inspectStep (path : String) (settings : Settings) :
    Refuses (inspectStep host files o path settings) :=
  refuses_bind (refuses_primeStep settings) fun _ =>
    refuses_bind (refuses_pathStep path) fun _ =>
      refuses_bind (refuses_loadStep _ _ _) fun _ =>
        refuses_bind (refuses_worded _) fun _ => refuses_printStep _

/-! ## Results of steps -/

theorem worded_eq_ok_iff {r : Except Limit α} {a : α} :
    (worded r).outcome = .ok a ↔ r = .ok a := by
  cases r <;> simp [worded, stop, Run.ofExcept, pure]

theorem pathStep_eq_ok_iff {text : String} {path : FilePath} :
    (pathStep files text).outcome = .ok path ↔
      files.isTooLong (FilePath.ofString text) = false ∧ FilePath.ofString text = path := by
  unfold pathStep
  dsimp only
  cases files.isTooLong (FilePath.ofString text) <;> simp [stop, Run.ofExcept, pure]

theorem loadStep_eq_ok_iff {path : FilePath} {entrypoint : Text} {expected : Option Int}
    {p : Program} : (loadStep host files path entrypoint expected).outcome = .ok p ↔
      ((Artifact.Source.file path).load host.room.inner files entrypoint expected).outcome =
        .ok p := by
  unfold loadStep
  dsimp only
  cases ((Artifact.Source.file path).load host.room.inner files entrypoint expected).outcome with
  | ok q => simp [pure, Run.ofExcept]
  | error f =>
    refine iff_of_false ?_ (by simp)
    cases f with
    | rejected e =>
      dsimp only
      cases e.message <;> rintro ⟨⟩
    | _ => rintro ⟨⟩

/-- What is expected is the integer of the option, or that of the settings where the option has no
text. -/
theorem primeStep_eq_ok_iff {settings : Settings} {s : String} (given : o.expectedPrime = some s)
    {expected : Option Int} : (primeStep o settings).outcome = .ok expected ↔
      (s = "" ∧ expected = settings.expectedPrime) ∨
        s ≠ "" ∧ ∃ n, integerOfText s = .ok n ∧ expected = some n := by
  rw [primeStep, given]
  split
  · rename_i none
    cases none
  · rename_i empty
    obtain rfl := Option.some.inj empty
    simp [pure, Run.ofExcept, eq_comm]
  · rename_i s' full same
    obtain rfl := Option.some.inj same
    have not_empty : s ≠ "" := fun h => full h
    cases integerOfText s with
    | ok n => simp [not_empty, pure, Run.ofExcept, eq_comm]
    | error fault =>
      refine iff_of_false (by rintro ⟨⟩) ?_
      rintro (⟨empty, -⟩ | ⟨-, n, ⟨⟩, -⟩)
      exact not_empty empty

/-! ## Runs that print -/

/-- The words ask for an artifact that, with the settings they name and whatever its prime, loads
as the program and is printed as the text, which the output can show. -/
structure Shows (host : Host) (files : Files) (words : List String) (o : Options)
    (settings : Settings) (p : Program) (t : Text) : Prop where
  asked : read words = .options o
  command : o.command = some "inspect"
  configured : (settingsStep host files o).outcome = .ok settings
  loaded : ∃ word, o.artifact = some word ∧ word ≠ "" ∧
    files.isTooLong (FilePath.ofString word) = false ∧
    ((Artifact.Source.file (FilePath.ofString word)).load host.room.inner files
      (entrypointOf o settings) none).outcome = .ok p
  printed : printed o p (entrypointOf o settings) = .ok t
  taken : host.Takes t

theorem outcomeOf_eq_text_iff {log log' : List Record} {r : Except Stop Text} {t : Text}
    (refuses : r ≠ .error (.exit 0)) :
    outcomeOf log r = .ok ⟨0, .text t, log'⟩ ↔ r = .ok t ∧ log = log' := by
  cases r with
  | ok t' => simp [outcomeOf]
  | error s =>
    cases s with
    | exit code =>
      refine iff_of_false ?_ (by simp)
      rintro ⟨⟩
      exact refuses rfl
    | crash c => exact iff_of_false (by rintro ⟨⟩) (by simp)

theorem inspectStep_eq_ok_iff {word : String} {settings : Settings} {t : Text} :
    (inspectStep host files o word settings).outcome = .ok t ↔
      ∃ expected p, (primeStep o settings).outcome = .ok expected ∧
        files.isTooLong (FilePath.ofString word) = false ∧
        ((Artifact.Source.file (FilePath.ofString word)).load host.room.inner files
          (entrypointOf o settings) expected).outcome = .ok p ∧
        printed o p (entrypointOf o settings) = .ok t ∧ host.Takes t := by
  simp only [inspectStep, Run.outcome_bind, Except.bind_eq_ok, pathStep_eq_ok_iff,
    loadStep_eq_ok_iff, worded_eq_ok_iff, printStep_eq_ok_iff]
  constructor
  · rintro ⟨expected, prime, _, ⟨short, rfl⟩, p, loaded, _, printed, taken, rfl⟩
    exact ⟨expected, p, prime, short, loaded, printed, taken⟩
  · rintro ⟨expected, p, prime, short, loaded, printed, taken⟩
    exact ⟨expected, prime, _, ⟨short, rfl⟩, p, loaded, _, printed, taken, rfl⟩

theorem inspect_eq_text_iff {word : String} {t : Text} :
    (∃ log, inspect host files o word = .ok ⟨0, .text t, log⟩) ↔
      ∃ settings, (settingsStep host files o).outcome = .ok settings ∧
        (inspectStep host files o word settings).outcome = .ok t := by
  have stopped : Refuses (settingsStep host files o) := refuses_settingsStep
  rw [inspect]
  dsimp only
  cases step : (settingsStep host files o).outcome with
  | error s =>
    have refuses : (.error s : Except Stop Text) ≠ .error (.exit 0) := by
      rintro ⟨⟩
      exact stopped step
    simp [outcomeOf_eq_text_iff refuses]
  | ok settings =>
    simp [outcomeOf_eq_text_iff (refuses_inspectStep word settings)]

/-- A run prints what it shows if the prime is as expected. -/
theorem run_eq_text_iff {words : List String} {t : Text} :
    (∃ log, run host files words = .ok ⟨0, .text t, log⟩) ↔
      ∃ o settings p expected, Shows host files words o settings p t ∧
        (primeStep o settings).outcome = .ok expected ∧
        ∀ q, expected = some q → q = p.prime := by
  constructor
  · rintro ⟨log, h⟩
    rw [run] at h
    cases asked : read words with
    | help => simp [asked] at h
    | misuse => simp [asked] at h
    | options o =>
      simp only [asked] at h
      unfold runOptions at h
      split at h
      · rename_i word command artifact
        split at h
        · simp at h
        · rename_i not_empty
          obtain ⟨settings, configured, steps⟩ := inspect_eq_text_iff.mp ⟨log, h⟩
          obtain ⟨expected, p, prime, short, loaded, printed, taken⟩ :=
            inspectStep_eq_ok_iff.mp steps
          obtain ⟨loaded, same⟩ := Artifact.load_expecting_iff.mp loaded
          exact ⟨o, settings, p, expected, ⟨asked, command, configured,
            ⟨word, artifact, not_empty, short, loaded⟩, printed, taken⟩, prime, same⟩
      · simp at h
  · rintro ⟨o, settings, p, expected, shows, prime, same⟩
    obtain ⟨word, artifact, not_empty, short, loaded⟩ := shows.loaded
    have steps := inspectStep_eq_ok_iff.mpr ⟨expected, p, prime, short,
      Artifact.load_expecting_iff.mpr ⟨loaded, same⟩, shows.printed, shows.taken⟩
    rw [run_eq_inspect shows.asked shows.command artifact not_empty]
    exact inspect_eq_text_iff.mpr ⟨settings, shows.configured, steps⟩

/-! ## The prime -/

/-- A run whose words name a prime prints an artifact exactly if the artifact has this prime: the
integer that the last value denotes or, where the last value is empty, that of the settings. -/
theorem run_expected_prime {words : List String} (named : Setting.expectedPrime.NamedIn words)
    {t : Text} : (∃ log, run host files words = .ok ⟨0, .text t, log⟩) ↔
      ∃ s o settings p, Setting.expectedPrime.last? words = some s ∧
        Shows host files words o settings p t ∧
        (s ≠ "" → integerOfText s = .ok p.prime) ∧
        (s = "" → ∀ q, settings.expectedPrime = some q → q = p.prime) := by
  rw [run_eq_text_iff]
  constructor
  · rintro ⟨o, settings, p, expected, shows, prime, same⟩
    obtain ⟨s, last⟩ := named.last?_eq_some shows.asked
    have given : o.expectedPrime = some s := (read_value shows.asked).trans last
    refine ⟨s, o, settings, p, last, shows, ?_⟩
    rcases (primeStep_eq_ok_iff given).mp prime with ⟨rfl, rfl⟩ | ⟨full, n, hn, rfl⟩
    · exact ⟨fun full => absurd rfl full, fun _ => same⟩
    · obtain rfl := same n rfl
      exact ⟨fun _ => hn, fun empty => absurd empty full⟩
  · rintro ⟨s, o, settings, p, last, shows, denotes, fallback⟩
    have given : o.expectedPrime = some s := (read_value shows.asked).trans last
    by_cases empty : s = ""
    · exact ⟨o, settings, p, settings.expectedPrime, shows,
        (primeStep_eq_ok_iff given).mpr (.inl ⟨empty, rfl⟩), fallback empty⟩
    · refine ⟨o, settings, p, some p.prime, shows,
        (primeStep_eq_ok_iff given).mpr (.inr ⟨empty, _, denotes empty, rfl⟩), ?_⟩
      rintro q ⟨⟩
      rfl

/-! ## A file with one constant -/

/-- The words ask for the artifact and give a prime. -/
def primeOptions (s : String) : Options :=
  { command := some "inspect", artifact := some "a.json", expectedPrime := some s }

def twoOfSeven : Felt := ⟨2, 7, by decide, by decide⟩

/-- A file with a constant that is two modulo seven. -/
def twoFiles : Files := constantFiles "__main__.LIMIT" twoOfSeven

theorem twoFiles_opened : Opened Room.standard.inner twoFiles "a.json"
    (constantDocument "__main__.LIMIT" twoOfSeven) :=
  constantFiles_opened (by decide) (Text.unsplit_ofString _) twoOfSeven

/-- What the file shows, in an output in Unicode. -/
theorem twoFiles_shows {words : List String} {s : String}
    (asked : read words = .options (primeOptions s)) :
    ∃ t, Shows .standard twoFiles words (primeOptions s) {}
      (constantProgram "__main__.LIMIT" twoOfSeven) t := by
  have loads := constantDocument_loads "__main__.LIMIT" twoOfSeven
  have prints : Except.FailsUnless (constantProgram "__main__.LIMIT" twoOfSeven).ShortConstants
      .writing (printed (primeOptions s) (constantProgram "__main__.LIMIT" twoOfSeven) "main") :=
    failsUnless_printed_text rfl (loads.short_main twoFiles_opened.short) loads.hints.short
  obtain ⟨t, ht⟩ :=
    prints.exists_ok_iff.mpr (constantProgram_shortConstants_iff.mpr (by decide))
  have names : Host.standard.Takes ("__main__.LIMIT" : Text) := takes_ofString (by decide)
  have taken : Host.standard.Takes t := by
    obtain ⟨lines, hlines, same⟩ := Except.bind_eq_ok.mp ht
    obtain rfl := Except.ok.inj same
    exact (takes_summary_iff (takes_ofString (by decide)) hlines).mpr
      (takesNames_constantProgram_iff.mpr names)
  exact ⟨t, asked, rfl, rfl, ⟨"a.json", rfl, by decide, rfl, twoFiles_opened.load loads⟩, ht, taken⟩

theorem run_shortened_prime :
    Setting.expectedPrime.NamedIn ["inspect", "a.json", "--exp=0x7"] ∧
      ∃ t log, run .standard twoFiles ["inspect", "a.json", "--exp=0x7"] =
        .ok ⟨0, .text t, log⟩ := by
  have named : Setting.expectedPrime.NamedIn ["inspect", "a.json", "--exp=0x7"] :=
    ⟨"--exp=0x7", by decide, by decide⟩
  have asked : read ["inspect", "a.json", "--exp=0x7"] = .options (primeOptions "0x7") := by decide
  obtain ⟨t, shows⟩ := twoFiles_shows asked
  refine ⟨named, t, (run_expected_prime named).mpr
    ⟨"0x7", _, _, _, by decide, shows, fun _ => rfl, fun empty => ?_⟩⟩
  exact absurd empty (by decide)

/-- A prime that is given as an empty text is no integer, and the artifact is printed all the
same. -/
theorem run_empty_prime :
    Setting.expectedPrime.NamedIn ["inspect", "a.json", "--expected-prime="] ∧
      Setting.expectedPrime.last? ["inspect", "a.json", "--expected-prime="] = some "" ∧
      (∀ n, integerOfText ("" : String) ≠ .ok n) ∧
      ∃ t log, run .standard twoFiles ["inspect", "a.json", "--expected-prime="] =
        .ok ⟨0, .text t, log⟩ := by
  have asked : read ["inspect", "a.json", "--expected-prime="] = .options (primeOptions "") := by
    decide
  obtain ⟨t, shows⟩ := twoFiles_shows asked
  refine ⟨⟨"--expected-prime=", by decide, by decide⟩, by decide, by rintro n ⟨⟩, t, ?_⟩
  exact run_eq_text_iff.mpr ⟨_, _, _, none, shows, rfl, by simp⟩

end CommandLine

end FieldProgram

import FieldProgram.Proofs.Artifact.Source
import FieldProgram.Proofs.CommandLine.Precedence
import FieldProgram.Proofs.CommandLine.Settings
import FieldProgram.Proofs.CommandLine.Verbose
import FieldProgram.Proofs.Settings.Apart
import FieldProgram.Proofs.Settings.Logging

/-!
# What is logged makes no difference

How much a run logs is asked for by a flag and in a file of settings. Neither changes what is seen
of the run, and with the flag nothing is missing of what is logged without it.

* `ExchangesFile.settingsStep_alike`: another section on what is logged gives the same settings;
* `run_logging_unseen`: neither it nor the flag is seen.
-/

namespace FieldProgram

open Log

/-! ## Lengths of paths -/

/-- Whether a path is too long depends on the folders only. -/
theorem Files.isTooLong_congr {files files' : Files}
    (folders : ∀ p, files p = some .folder ↔ files' p = some .folder) (p : FilePath) :
    files.isTooLong p = files'.isTooLong p := by
  have long (root : String) (before left : List String) :
      files.meetsLongName root before left = files'.meetsLongName root before left := by
    induction left generalizing before with
    | nil => rfl
    | cons part parts ih =>
      have same : (files ⟨root, before ++ [part]⟩ == some .folder) =
          (files' ⟨root, before ++ [part]⟩ == some .folder) := by
        rw [Bool.eq_iff_iff, beq_iff_eq, beq_iff_eq]
        exact folders _
      rw [meetsLongName, meetsLongName, same, ih]
  rw [isTooLong, isTooLong, long]

namespace CommandLine

variable {host : Host} {room : Room} {files files' : Files} {o : Options} {words : List String}

/-! ## Exchanging what is logged in a file of settings -/

/-- The files are the same but for one, a file of settings that are read in the given room, in which
the section on what is logged is exchanged. -/
structure ExchangesFile (room : Room) (files files' : Files) (path : FilePath) : Prop where
  others (p : FilePath) (other : p ≠ path) : files p = files' p
  octets : ∃ octets octets', files path = some (.file octets) ∧
    files' path = some (.file octets') ∧ Settings.ExchangesIn room octets octets'

variable {path : FilePath}

theorem ExchangesFile.isTooLong (h : ExchangesFile room files files' path) (p : FilePath) :
    files.isTooLong p = files'.isTooLong p := by
  refine Files.isTooLong_congr (fun q => ?_) p
  by_cases same : q = path
  · obtain ⟨octets, octets', file, file', -⟩ := h.octets
    subst same
    simp [file, file']
  · rw [h.others q same]

/-- How settings are come by alike: the run stops for one reason, or they differ in what is logged
at most. -/
inductive ConfiguredAlike : Except Stop Settings → Except Stop Settings → Prop
  | stopped (s : Stop) : ConfiguredAlike (.error s) (.error s)
  | configured {s s' : Settings} (same : s.SameButLogging s') : ConfiguredAlike (.ok s) (.ok s')

theorem ConfiguredAlike.refl (r : Except Stop Settings) : ConfiguredAlike r r := by
  cases r with
  | error s => exact .stopped s
  | ok s => exact .configured ⟨rfl, rfl⟩

theorem configuredAlike_of_endsAlike {r r' : Except SettingsFailure Settings}
    (h : Settings.EndsAlike r r') :
    ConfiguredAlike (r.mapError settingsStop) (r'.mapError settingsStop) := by
  cases h with
  | loaded same => exact .configured same
  | refused e e' worded worded' =>
    obtain ⟨t, ht⟩ := worded
    obtain ⟨t', ht'⟩ := worded'
    simp only [Except.mapError, settingsStop, ht, ht']
    exact .stopped _
  | limit l => exact .stopped _

theorem ExchangesFile.load_alike (h : ExchangesFile room files files' path) (p : FilePath) :
    ConfiguredAlike ((Settings.load room files p).mapError settingsStop)
      ((Settings.load room files' p).mapError settingsStop) := by
  by_cases same : p = path
  · subst same
    obtain ⟨octets, octets', file, file', exchanged⟩ := h.octets
    exact configuredAlike_of_endsAlike (Settings.load_exchanged file file' exchanged)
  · have load : Settings.load room files p = Settings.load room files' p := by
      rw [Settings.load, Settings.load, Settings.readDocument, Settings.readDocument,
        h.others p same]
    rw [load]
    exact .refl _

theorem ExchangesFile.settingsStep_alike (h : ExchangesFile host.room.inner files files' path)
    (o : Options) : ConfiguredAlike (settingsStep host files o).outcome
      (settingsStep host files' o).outcome := by
  by_cases named : ∃ text, o.config = some text ∧ text ≠ ""
  · obtain ⟨text, config, full⟩ := named
    rw [settingsStep_outcome config full, settingsStep_outcome config full, h.isTooLong]
    split
    · exact .refl _
    · exact h.load_alike _
  · have same : settingsStep host files o = settingsStep host files' o := by
      unfold settingsStep
      split
      · rfl
      · rfl
      · rename_i text other config
        exact absurd ⟨text, config, fun empty => other empty⟩ named
    rw [same]
    exact .refl _

/-- The file holds no document in the layout of artifacts, and what is shown of the one that it may
hold is not nested too deeply to be reported. -/
def NoArtifact (room : Room) (files : Files) (path : FilePath) : Prop :=
  ∀ d, ((Artifact.Source.file path).document room files).outcome = .ok d →
    ¬ Artifact.IsArtifact d ∧ ∀ x ∈ Artifact.violations d, x.Fits room.inner.inner

/-- A refusal of an artifact ends the run with an exit code of its own. -/
theorem loadStep_of_rejected {entrypoint : Text} {expected : Option Int} {e : LoadError}
    (worded : e.Worded) (rejected :
      ((Artifact.Source.file path).load host.room.inner files entrypoint expected).outcome =
        .error (.rejected e)) :
    (loadStep host files path entrypoint expected).outcome = .error (.exit 3) := by
  obtain ⟨t, ht⟩ := worded
  simp only [loadStep, rejected, ht]
  rfl

theorem NoArtifact.loadStep {octets : List UInt8} (none : NoArtifact host.room.inner files path)
    (file : files path = some (.file octets)) (entrypoint : Text) (expected : Option Int) :
    (loadStep host files path entrypoint expected).outcome = .error (.exit 3) := by
  have load : ((Artifact.Source.file path).load host.room.inner files entrypoint
      expected).outcome = _ := (Artifact.Source.Gives.file file).outcome_load
  cases document : (Artifact.Content.octets octets).document host.room.inner.inner.inner with
  | error f =>
    rw [document] at load
    obtain ⟨e, worded, rfl⟩ := Artifact.Content.refused_of_document document
    exact loadStep_of_rejected worded load
  | ok d =>
    have short := Artifact.Content.short_of_document document
    obtain ⟨broken, fits⟩ := none d (Artifact.document_file_eq_ok_iff.mpr ⟨octets, file, document⟩)
    rw [document] at load
    rcases Artifact.checkLayout_cases host.room.inner.inner.inner short with
      ⟨layout, -⟩ | ⟨-, -, e, worded, -, refused⟩ | ⟨-, ⟨x, hx, unfit⟩, -⟩
    · exact absurd layout broken
    · exact loadStep_of_rejected worded (load.trans (Artifact.outcome_load_of_refused refused _ _))
    · exact absurd (fits x hx) unfit

/-- A file that gives settings holds no artifact. -/
theorem noArtifact_of_load {s : Settings} (loaded : Settings.load room files path = .ok s) :
    NoArtifact room files path := by
  intro d document
  obtain ⟨octets, file, document⟩ := Artifact.document_file_eq_ok_iff.mp document
  obtain ⟨v, held, gives⟩ := (Settings.load_ends file).eq_ok_iff.mp loaded
  obtain ⟨none, flat⟩ := Settings.not_isArtifact held gives document
  refine ⟨none, fun x hx => ?_⟩
  rw [Violation.Fits, flat x hx]
  exact Nat.zero_le _

/-- The options name the file as the one of settings. -/
def NamesSettings (o : Options) (path : FilePath) : Prop :=
  ∃ text, o.config = some text ∧ text ≠ "" ∧ FilePath.ofString text = path

theorem NamesSettings.noArtifact {s : Settings} (named : NamesSettings o path)
    (ok : (settingsStep host files o).outcome = .ok s) : NoArtifact host.room.inner files path := by
  obtain ⟨text, config, full, rfl⟩ := named
  rw [settingsStep_outcome config full] at ok
  split at ok
  · cases ok
  · exact noArtifact_of_load (Except.mapError_eq_ok.mp ok)

/-- If the words name the file as the artifact, then they name it as the file of settings, too, or
it is no artifact. -/
def ArtifactApart (host : Host) (files files' : Files) (words : List String) (path : FilePath) :
    Prop :=
  ∀ o artifact, read words = .options o → o.artifact = some artifact →
    FilePath.ofString artifact = path → NamesSettings o path ∨
      NoArtifact host.room.inner files path ∧ NoArtifact host.room.inner files' path

theorem ExchangesFile.loadStep_alike (h : ExchangesFile host.room.inner files files' path)
    {artifact : FilePath} (none : artifact = path →
      NoArtifact host.room.inner files path ∧ NoArtifact host.room.inner files' path)
    (entrypoint : Text) (expected : Option Int) :
    (loadStep host files artifact entrypoint expected).outcome =
      (loadStep host files' artifact entrypoint expected).outcome := by
  by_cases same : artifact = path
  · obtain ⟨none, none'⟩ := none same
    obtain ⟨octets, octets', file, file', -⟩ := h.octets
    rw [same, none.loadStep file, none'.loadStep file']
  · have document : (Artifact.Source.file artifact).document host.room.inner files =
        (Artifact.Source.file artifact).document host.room.inner files' := by
      simp only [Artifact.Source.document, h.others _ same]
    rw [loadStep, loadStep, Artifact.Source.load, Artifact.Source.load, document]

theorem ExchangesFile.seen_runOptions (h : ExchangesFile host.room.inner files files' path)
    (apart : ∀ artifact, o.artifact = some artifact → FilePath.ofString artifact = path →
      NamesSettings o path ∨
        NoArtifact host.room.inner files path ∧ NoArtifact host.room.inner files' path) :
    seen (runOptions host files o) = seen (runOptions host files' o) := by
  refine seen_runOptions_congr ⟨rfl, rfl, rfl⟩ fun artifact named => ?_
  have alike := h.settingsStep_alike o
  simp only [inspectOutcome, bind, Except.bind]
  generalize settings : (settingsStep host files o).outcome = r at alike ⊢
  generalize settings' : (settingsStep host files' o).outcome = r' at alike ⊢
  cases alike with
  | stopped s => rfl
  | @configured s s' same =>
    have prime : primeStep o s = primeStep o s' := by
      rw [primeStep, primeStep, same.expectedPrime]
    have entrypoint : entrypointOf o s = entrypointOf o s' := by
      rw [entrypointOf, entrypointOf, same.entrypoint]
    -- The artifact is looked at behind settings only, which no artifact gives.
    have none (here : FilePath.ofString artifact = path) :
        NoArtifact host.room.inner files path ∧ NoArtifact host.room.inner files' path :=
      (apart artifact named here).elim
        (fun config => ⟨config.noArtifact settings, config.noArtifact settings'⟩) id
    exact inspectStep_outcome_congr rfl (congrArg _ prime) entrypoint (h.isTooLong _)
      (h.loadStep_alike none)

/-! ## Runs -/

/-- What is logged makes no difference to what is seen of a run: neither the flag that has
everything logged, which only adds to the log, nor the section of a file of settings. Added among
the words in front of two dashes, the flag may make a usage error of them, and that is all it may
do; it never does behind an option and its value, in front of an option or at either end. -/
theorem run_logging_unseen :
    (∀ host files words words', AddsVerbose words words' →
      seen (run host files words') = seen (run host files words) ∧
        (logged host files words).Sublist (logged host files words')) ∧
    (∀ host files flag front back, IsVerbose flag → "--" ∉ front →
      seen (run host files (front ++ flag :: back)) = seen (run host files (front ++ back)) ∧
          (logged host files (front ++ back)).Sublist
            (logged host files (front ++ flag :: back)) ∨
        run host files (front ++ flag :: back) = .ok ⟨2, .text "", []⟩) ∧
    ∀ host files files' path words, ExchangesFile host.room.inner files files' path →
      ArtifactApart host files files' words path →
        seen (run host files' words) = seen (run host files words) := by
  refine ⟨fun host files words words' adds => verbosely_unseen adds.read,
    fun host files flag front back verbose separator => ?_, ?_⟩
  · rcases read_verbosely_or_misuse verbose separator with same | misread
    · exact .inl (verbosely_unseen same)
    · exact .inr (by rw [run, misread])
  · intro host files files' path words exchanged apart
    unfold ArtifactApart at apart
    rw [run, run]
    cases asked : read words with
    | help => rfl
    | misuse => rfl
    | options o => exact (exchanged.seen_runOptions fun artifact => apart o artifact asked).symm

/-! ### A run -/

theorem holds_of_read {room : Room} {text : String} {c : Yaml.Collections} {root : Yaml.Part}
    (decoded : Text.Utf8.decode (Text.Utf8.encode text.toList) = .ok text.toList)
    (h : (Yaml.read room (Yaml.plainBreaksOf text.toList)).map
      (fun v => (v.collections, v.root)) = .ok (c, root)) :
    Settings.Holds room (Text.Utf8.encode text.toList) ⟨c, root⟩ := by
  obtain ⟨v, hv, same⟩ := Except.map_eq_ok.mp h
  obtain ⟨rfl, rfl⟩ := Prod.mk.inj same
  exact ⟨text.toList, decoded, hv⟩

/-- What a file holds that names an entry point. -/
def startValue : Yaml.Value where
  collections := #[.map [(.str "entrypoint", .atom (.str "start"))], .list [], .list []]
  root := .collection 0

/-- What a file holds that has a section on what is logged, too, for which only errors count. -/
def errorValue : Yaml.Value where
  collections := #[
    .map [(.str "entrypoint", .atom (.str "start")), (.str "logging", .collection 4)],
    .list [], .list [], .list [], .map [(.str "level", .atom (.str "error"))], .list [], .list []]
  root := .collection 0

/-- A file that names an entry point, beside an artifact. -/
def plainFiles : Files := filesBeside "entrypoint: start\n"

/-- The same with a section on what is logged. -/
def sectionFiles : Files := filesBeside "entrypoint: start\nlogging:\n  level: error\n"

theorem exchangesIn_error :
    Settings.ExchangesIn Room.standard.inner (Text.Utf8.encode "entrypoint: start\n".toList)
      (Text.Utf8.encode "entrypoint: start\nlogging:\n  level: error\n".toList) := by
  have start : Settings.Holds Room.standard.inner
      (Text.Utf8.encode "entrypoint: start\n".toList) startValue :=
    holds_of_read (by decide +kernel) (by decide +kernel)
  have error : Settings.Holds Room.standard.inner
      (Text.Utf8.encode "entrypoint: start\nlogging:\n  level: error\n".toList) errorValue :=
    holds_of_read (by decide +kernel) (by decide +kernel)
  let entry (v : Yaml.Value) : Label × Yaml.Value :=
    (.text "entrypoint", { v with root := .atom (.str "start") })
  let logged : Yaml.Value := { errorValue with root := .collection 4 }
  refine ⟨startValue, errorValue, [entry startValue], [entry errorValue, (.text "logging", logged)],
    start, error, rfl, rfl, ?_⟩
  have alike (levels : Nat) : Layered.shown levels (entry startValue).2 =
      Layered.shown levels (entry errorValue).2 := by
    cases levels <;> rfl
  refine ⟨.cons ⟨rfl, alike, rfl⟩ .nil, by rintro x ⟨⟩, ?_⟩
  rintro x ⟨⟩
  refine Settings.loggingLayout_violations_eq_nil_iff.mpr
    ⟨[(.text "level", { errorValue with root := .atom (.str "error") })], rfl, ?_,
      by rintro w ⟨⟩, by decide⟩
  rintro w ⟨⟩
  exact ⟨"error", by decide, rfl⟩

theorem exchangesFile_error :
    ExchangesFile Room.standard.inner plainFiles sectionFiles (FilePath.ofString "c.yaml") where
  others p other := by rw [plainFiles, sectionFiles, filesBeside, filesBeside, if_neg other,
    if_neg other]
  octets := ⟨_, _, by rw [plainFiles, filesBeside, if_pos rfl], by
    rw [sectionFiles, filesBeside, if_pos rfl], exchangesIn_error⟩

theorem run_start_logging_unseen :
    ExchangesFile Room.standard.inner plainFiles sectionFiles (FilePath.ofString "c.yaml") ∧
    seen (run .standard sectionFiles ["inspect", "a.json", "--config", "c.yaml"]) =
      seen (run .standard plainFiles ["inspect", "a.json", "--config", "c.yaml"]) ∧
    seen (run .standard plainFiles ["inspect", "a.json", "--config", "c.yaml", "--verbose"]) =
      seen (run .standard plainFiles ["inspect", "a.json", "--config", "c.yaml"]) ∧
    (seen (run .standard plainFiles ["inspect", "--verbose", "a.json"]) =
        seen (run .standard plainFiles ["inspect", "a.json"]) ∧
        (logged .standard plainFiles ["inspect", "a.json"]).Sublist
          (logged .standard plainFiles ["inspect", "--verbose", "a.json"]) ∨
      run .standard plainFiles ["inspect", "--verbose", "a.json"] = .ok ⟨2, .text "", []⟩) := by
  have adds : AddsVerbose (["inspect", "a.json", "--config", "c.yaml"] ++ [])
      (["inspect", "a.json", "--config", "c.yaml"] ++ ["--verbose"]) :=
    .add (by decide) (by decide) (.inr (by simp [StartsWithOption]))
  have apart : ArtifactApart .standard plainFiles sectionFiles
      ["inspect", "a.json", "--config", "c.yaml"] (FilePath.ofString "c.yaml") := by
    intro o artifact asked named same
    have words : read ["inspect", "a.json", "--config", "c.yaml"] = .options
      { command := some "inspect", artifact := some "a.json", config := some "c.yaml" } := by decide
    obtain rfl := Parsed.options.inj (words.symm.trans asked)
    obtain rfl := Option.some.inj named
    exact absurd same (by decide)
  exact ⟨exchangesFile_error, run_logging_unseen.2.2 .standard _ _ _ _ exchangesFile_error apart,
    (run_logging_unseen.1 .standard _ _ _ adds).1,
    run_logging_unseen.2.1 .standard plainFiles "--verbose" ["inspect"] ["a.json"] (by decide)
      (by decide)⟩

end CommandLine

end FieldProgram

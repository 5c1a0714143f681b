import FieldProgram.Proofs.CommandLine.Inspect
import FieldProgram.Proofs.CommandLine.Output

/-!
# Loading what the command line printed

Printing the artifact of a file and loading the print gives the program of the file, but for three
kinds of programs: where a symbol has a value beyond the decimal limit, nothing is printed and the
run crashes; where the output has no place for the name of a builtin or of a constant, the summary
is not printed and the run crashes; and where the halves of a surrogate pair stand together in a
text, they come back as one character.

* `Opened.run_summary`, `Opened.run_json`: how the two runs end;
* `run_inspect_reload`: when the program comes back.
-/

namespace FieldProgram

open Numeral

namespace CommandLine

open Artifact

variable {host : Host} {room : Room} {files : Files} {word : String} {d : Document}
  {entrypoint : Text} {expected : Option Int} {p : Program}

/-- The word names a file that holds the document, read in the given room. -/
structure Opened (room : Room) (files : Files) (word : String) (d : Document) : Prop where
  path : IsPath files word
  short : d.Short
  distinct : d.KeysDistinct
  document : ((Source.file (FilePath.ofString word)).document room files).outcome = .ok d

theorem IsPath.opened (path : IsPath files word)
    (loaded : ((Source.file (FilePath.ofString word)).load room files entrypoint
      expected).outcome = .ok p) :
    ∃ d, Opened room files word d ∧ Loads d entrypoint expected p := by
  obtain ⟨octets, found, d, document, loads⟩ := load_file_eq_ok_iff.mp loaded
  have same := document_file_eq_ok_iff.mpr ⟨octets, found, document⟩
  exact ⟨d, ⟨path, Content.short_of_document document, Content.keysDistinct_of_document document,
    same⟩, loads⟩

theorem Opened.load (h : Opened room files word d) (loads : Loads d entrypoint expected p) :
    ((Source.file (FilePath.ofString word)).load room files entrypoint expected).outcome =
      .ok p := by
  obtain ⟨octets, found, document⟩ := document_file_eq_ok_iff.mp h.document
  exact load_file_eq_ok_iff.mpr ⟨octets, found, d, document, loads⟩

/-! ## How runs end -/

/-- The run crashes at a code point that the output has no place for. -/
def CrashesShowing (host : Host) (r : Except Crash Outcome) : Prop :=
  ∃ c, host.takes c = false ∧ r = .error (.unencodable c)

/-- A run prints where what it prints has a text that the output can show, and crashes where not. -/
theorem Opened.run_inspect {words : List String} {o : Options}
    (h : Opened host.room.inner files word d) (asked : read words = .options o)
    (command : o.command = some "inspect") (artifact : o.artifact = some word)
    (config : o.config = none) (prime : o.expectedPrime = none)
    (loads : Loads d (entrypointOf o {}) none p) {q : Prop}
    (ends : Except.FailsUnless q .writing (printed o p (entrypointOf o {}))) :
    (q → ∃ t, printed o p (entrypointOf o {}) = .ok t ∧
      (host.Takes t → ∃ log, run host files words = .ok ⟨0, .text t, log⟩) ∧
      (¬host.Takes t → CrashesShowing host (run host files words))) ∧
      (¬q → run host files words = .error (.limit .writing)) := by
  obtain ⟨log, same⟩ :=
    run_inspect_loaded asked command artifact config prime h.path (h.load loads)
  constructor
  · intro holds
    obtain ⟨t, ht⟩ := ends.exists_ok_iff.mpr holds
    rw [ht] at same
    refine ⟨t, ht, fun taken => ⟨log, ?_⟩, fun refused => ?_⟩
    · rw [same, Log.Run.outcome_bind]
      show outcomeOf log (printStep host t).outcome = _
      rw [printStep_of_takes taken]
      rfl
    · obtain ⟨c, -, unshown, stopped⟩ := printStep_of_not_takes refused
      refine ⟨c, unshown, ?_⟩
      rw [same, Log.Run.outcome_bind]
      show outcomeOf log (printStep host t).outcome = _
      rw [stopped]
      rfl
  · intro fails
    rw [ends.eq_error fails] at same
    exact same

theorem Opened.run_summary (h : Opened host.room.inner files word d)
    (loads : Loads d "main" none p) :
    (p.ShortConstants → host.TakesNames p →
      ∃ t log, run host files ["inspect", word] = .ok ⟨0, .text t, log⟩) ∧
    (p.ShortConstants → ¬host.TakesNames p →
      CrashesShowing host (run host files ["inspect", word])) ∧
    (¬p.ShortConstants → run host files ["inspect", word] = .error (.limit .writing)) := by
  obtain ⟨prints, crashes⟩ := h.run_inspect (read_inspect h.path) rfl rfl rfl rfl loads
    (failsUnless_printed_text rfl (loads.short_main h.short) loads.hints.short)
  have entered : host.Takes ("main" : String) := takes_ofString (by decide)
  have names {t : Text} (ht : printed { command := some "inspect", artifact := some word } p
      ("main" : String) = .ok t) : host.Takes t ↔ host.TakesNames p := by
    obtain ⟨lines, hlines, same⟩ := Except.bind_eq_ok.mp ht
    obtain rfl := Except.ok.inj same
    exact takes_summary_iff entered hlines
  refine ⟨fun short taken => ?_, fun short refused => ?_, crashes⟩
  · obtain ⟨t, ht, shown, -⟩ := prints short
    exact ⟨t, shown ((names ht).mpr taken)⟩
  · obtain ⟨t, ht, -, crash⟩ := prints short
    exact crash (mt (names ht).mp refused)

theorem Opened.run_json (h : Opened host.room.inner files word d)
    (loads : Loads d "main" none p) :
    (p.ShortValues → ∃ s log, Json.write .indented p.artifact = .ok s ∧
      run host files ["inspect", word, "--json"] = .ok ⟨0, .text (s ++ ("\n" : Text)), log⟩) ∧
      (¬p.ShortValues → run host files ["inspect", word, "--json"] = .error (.limit .writing)) := by
  obtain ⟨prints, crashes⟩ := h.run_inspect (read_inspect_json h.path) rfl rfl rfl rfl loads
    (.of_iff (failsUnless_printed_json rfl loads.hints.short) (loads.short_artifact_iff h.short))
  refine ⟨fun short => ?_, crashes⟩
  obtain ⟨t, ht, shown, -⟩ := prints short
  rw [printed_json rfl loads.hints.short] at ht
  obtain ⟨s, hs, rfl⟩ := Except.map_eq_ok.mp ht
  obtain ⟨log, run⟩ := shown (takes_written p.fitsIn_artifact hs)
  exact ⟨s, log, hs, run⟩

/-- Both runs print, and the program comes back from the artifact that is printed. -/
def PrintsFaithfully (host : Host) (files : Files) (word : String) (entrypoint : Text)
    (p : Program) : Prop :=
  (∃ t log, run host files ["inspect", word] = .ok ⟨0, .text t, log⟩) ∧
    ∃ t log, run host files ["inspect", word, "--json"] = .ok ⟨0, .text t, log⟩ ∧
      ∃ q, ((Source.content (.text t)).load host.room files entrypoint none).outcome = .ok q ∧
        p.agree q = true

/-- The entry point that is not asked for changes nothing but where the program starts. -/
theorem Opened.printsFaithfully_iff (h : Opened host.room.inner files word d)
    (loads : Loads d entrypoint none p) (spare : 6 < host.room.inner.brackets) :
    PrintsFaithfully host files word entrypoint p ↔
      p.ShortValues ∧ p.Unsplit ∧ host.TakesNames p := by
  have entered := loads.enter ("main" : Text)
  obtain ⟨json, crash⟩ := h.run_json entered
  obtain ⟨summarized, unshown, -⟩ := h.run_summary entered
  constructor
  · rintro ⟨⟨u, log₀, summary⟩, t, log, printed, again⟩
    have short : p.ShortValues := by
      by_contra long
      cases printed.symm.trans (crash long)
    have names : host.TakesNames p := by
      by_contra refused
      obtain ⟨c, -, crashed⟩ := unshown short.constants refused
      cases summary.symm.trans crashed
    obtain ⟨s, log', hs, printed'⟩ := json short
    obtain ⟨rfl, rfl⟩ : t = (s : Text) ++ ("\n" : Text) ∧ log = log' := by
      simpa using printed.symm.trans printed'
    exact ⟨short, (loads.reload_printed_iff h.distinct hs spare files).mp again, names⟩
  · rintro ⟨short, unsplit, names⟩
    obtain ⟨s, log, hs, printed⟩ := json short
    have again := (loads.reload_printed_iff h.distinct hs spare files).mpr unsplit
    exact ⟨summarized short.constants names, _, log, printed, again⟩

/-! ## A file with one constant -/

/-- An artifact with one constant of the given name, its value and the prime in hexadecimal. -/
def constantDocument (name : Text) (f : Felt) : Document := .map [
  ("prime", .str (hexText f.prime)),
  ("data", .list []),
  ("identifiers", .map [
    (name, .map [("type", .str "const"), ("value", .str (hexText f.value))])]),
  ("reference_manager", .map [("references", .list [])])]

def constantProgram (name : Text) (f : Felt) : Program where
  prime := f.prime
  identifiers := [(name, { type := some "const", value := some f })]

def constantFiles (name : Text) (f : Felt) : Files :=
  Files.ofList [(FilePath.ofString "a.json", .file (printedOctets (constantDocument name f)))]

variable {name : Text} {f : Felt}

theorem constantDocument_isArtifact (name : Text) (f : Felt) :
    IsArtifact (constantDocument name f) :=
  isArtifact_of_members rfl (.inl ⟨_, rfl⟩) rfl rfl rfl (.of_absent rfl) (.of_absent rfl) rfl

theorem constantDocument_loads (name : Text) (f : Felt) :
    Loads (constantDocument name f) "main" none (constantProgram name f) where
  layout := constantDocument_isArtifact name f
  prime := integerOfText_hexText f.prime
  one_lt := by
    have := f.one_lt_prime
    show (1 : Int) < f.prime
    omega
  expected := by simp
  data := .nil
  symbols := by
    have value : (Document.str (hexText f.value)).integer = .ok (f.value : Int) :=
      integerOfText_hexText f.value
    have record : IdentifierRecord.DescribedBy ⟨none, some "const", some f.value⟩
        (.map [("type", .str "const"), ("value", .str (hexText f.value))]) :=
      ⟨_, rfl, by simp [Text.ofString], .inl rfl, ⟨_, rfl, rfl⟩, ⟨_, rfl, value⟩⟩
    exact .cons ⟨rfl, _, record, rfl, rfl, .some f.represents_value⟩ .nil
  hints := ⟨[], .nil, List.nodup_nil, rfl⟩
  references := .nil
  named := by simp [NamedBelow, constantProgram]
  builtins := rfl
  main := by
    -- Whether or not the constant is called like the entry point, it has no program counter.
    simp only [entryPc?, constantProgram, List.lookup_cons, List.lookup_nil]
    split <;> rfl

theorem constantFiles_opened (spare : 3 < room.inner.inner.brackets) (unsplit : name.Unsplit)
    (f : Felt) : Opened room (constantFiles name f) "a.json" (constantDocument name f) := by
  have short : (constantDocument name f).Short := by simp [constantDocument]
  have distinct : (constantDocument name f).KeysDistinct := by simp [constantDocument]
  have fits : (constantDocument name f).FitsIn 3 := by simp [constantDocument]
  have unsplit : (constantDocument name f).Every (fun _ => True) Text.Unsplit := by
    simp [constantDocument, Text.unsplit_ofString, unsplit]
  have document := document_printedOctets short fits spare distinct unsplit
  exact ⟨⟨by decide, by decide, rfl⟩, short, distinct,
    document_file_eq_ok_iff.mpr ⟨_, rfl, document⟩⟩

theorem constantProgram_shortValues_iff :
    (constantProgram name f).ShortValues ↔ Document.ShortInteger f.value := by
  simp [constantProgram, Program.ShortValues]

theorem constantProgram_shortConstants_iff :
    (constantProgram name f).ShortConstants ↔ Document.ShortInteger f.value := by
  simp [constantProgram, Program.ShortConstants, Program.constants, Identifier.constant?]

theorem takesNames_constantProgram_iff :
    host.TakesNames (constantProgram name f) ↔ host.Takes name := by
  simp [constantProgram, Host.TakesNames, Program.constants, Identifier.constant?]

theorem constantProgram_unsplit (unsplit : name.Unsplit) (f : Felt) :
    (constantProgram name f).Unsplit where
  builtins := by simp [constantProgram]
  data := by simp [constantProgram]
  hints := by simp [constantProgram]
  references := by simp [constantProgram]
  identifiers := by
    have type : ∀ t ∈ some ("const" : Text), t.Unsplit := by simp [Text.unsplit_ofString]
    exact List.forall_mem_singleton.mpr ⟨unsplit, by simp, type⟩

/-! ## When the program comes back -/

/-- The runs print, and the program comes back, if no value of a symbol is beyond the decimal limit,
no text has halves of a surrogate pair together, and the output has a place for the names in the
summary; the calls must leave a few brackets. -/
theorem run_inspect_reload (spare : 6 < host.room.inner.brackets) (path : IsPath files word)
    (loaded : ((Source.file (FilePath.ofString word)).load host.room.inner files entrypoint
      none).outcome = .ok p) :
    (PrintsFaithfully host files word entrypoint p ↔
      p.ShortValues ∧ p.Unsplit ∧ host.TakesNames p) ∧
    (p.ShortConstants → host.TakesNames p →
      ∃ t log, run host files ["inspect", word] = .ok ⟨0, .text t, log⟩) ∧
    (p.ShortConstants → ¬host.TakesNames p →
      CrashesShowing host (run host files ["inspect", word])) ∧
    (¬p.ShortConstants → run host files ["inspect", word] = .error (.limit .writing)) ∧
    (p.ShortValues →
      ∃ t log, run host files ["inspect", word, "--json"] = .ok ⟨0, .text t, log⟩ ∧
        (p.Unsplit →
          ((Source.content (.text t)).load host.room files entrypoint none).outcome = .ok p)) ∧
    (¬p.ShortValues → run host files ["inspect", word, "--json"] = .error (.limit .writing)) := by
  obtain ⟨d, opened, loads⟩ := path.opened loaded
  have entered := loads.enter ("main" : Text)
  obtain ⟨summarized, unshown, long⟩ := opened.run_summary entered
  obtain ⟨json, crash⟩ := opened.run_json entered
  refine ⟨opened.printsFaithfully_iff loads spare, summarized, unshown, long, fun short => ?_,
    crash⟩
  obtain ⟨s, log, hs, printed⟩ := json short
  exact ⟨_, log, printed, loads.reload_printed opened.distinct hs spare files⟩

theorem run_inspect_reload_of_two :
    PrintsFaithfully .standard (constantFiles "__main__.LIMIT" ⟨2, 7, by decide, by decide⟩)
      "a.json" "main" (constantProgram "__main__.LIMIT" ⟨2, 7, by decide, by decide⟩) := by
  have unsplit : ("__main__.LIMIT" : Text).Unsplit := Text.unsplit_ofString _
  have opened : Opened Host.standard.room.inner _ "a.json" _ :=
    constantFiles_opened (by decide) unsplit ⟨2, 7, by decide, by decide⟩
  have loaded := opened.load (constantDocument_loads _ _)
  have short : (constantProgram "__main__.LIMIT" ⟨2, 7, by decide, by decide⟩).ShortValues :=
    constantProgram_shortValues_iff.mpr (by decide)
  have names : Host.standard.Takes ("__main__.LIMIT" : Text) := takes_ofString (by decide)
  exact (run_inspect_reload (by decide) opened.path loaded).1.mpr
    ⟨short, constantProgram_unsplit unsplit _, takesNames_constantProgram_iff.mpr names⟩

/-- The least number with more decimal digits than are written. -/
def longFelt : Felt where
  value := 10 ^ maxDigits
  prime := 10 ^ (maxDigits + 1)
  one_lt_prime := Nat.one_lt_pow (by decide) (by decide)
  value_lt_prime := Nat.pow_lt_pow_right (by decide) (by decide)

theorem longFelt_long : ¬Document.ShortInteger longFelt.value := by
  rw [Document.ShortInteger, Int.natAbs_natCast, length_decimalDigits,
    length_digits_le_iff (by decide) (by decide)]
  exact Nat.lt_irrefl _

/-- A file that loads although neither run prints anything. -/
theorem run_inspect_crashes :
    ((Source.file (FilePath.ofString "a.json")).load Room.standard.inner
      (constantFiles "__main__.LIMIT" longFelt) "main" none).outcome =
        .ok (constantProgram "__main__.LIMIT" longFelt) ∧
      run .standard (constantFiles "__main__.LIMIT" longFelt) ["inspect", "a.json"] =
        .error (.limit .writing) ∧
      run .standard (constantFiles "__main__.LIMIT" longFelt) ["inspect", "a.json", "--json"] =
        .error (.limit .writing) ∧
      ¬PrintsFaithfully .standard (constantFiles "__main__.LIMIT" longFelt) "a.json" "main"
        (constantProgram "__main__.LIMIT" longFelt) := by
  have opened : Opened Host.standard.room.inner (constantFiles "__main__.LIMIT" longFelt) "a.json"
      (constantDocument "__main__.LIMIT" longFelt) :=
    constantFiles_opened (by decide) (Text.unsplit_ofString _) longFelt
  have loads := constantDocument_loads "__main__.LIMIT" longFelt
  have long : ¬(constantProgram "__main__.LIMIT" longFelt).ShortValues :=
    fun short => longFelt_long (constantProgram_shortValues_iff.mp short)
  have long_constants : ¬(constantProgram "__main__.LIMIT" longFelt).ShortConstants :=
    fun short => longFelt_long (constantProgram_shortConstants_iff.mp short)
  exact ⟨opened.load loads, (opened.run_summary loads).2.2 long_constants,
    (opened.run_json loads).2 long, fun faithful =>
      long ((opened.printsFaithfully_iff loads (by decide)).mp faithful).1⟩

/-- Half of a surrogate pair has no place in an output in Unicode, and as a name it crashes the
summary. -/
theorem run_inspect_lone_name (short : Document.ShortInteger f.value) :
    CrashesShowing .standard
      (run .standard (constantFiles ⟨[.lone 0]⟩ f) ["inspect", "a.json"]) := by
  have unsplit : (⟨[.lone 0]⟩ : Text).Unsplit := by simp [Text.Unsplit, UnsplitCodes]
  have opened : Opened Host.standard.room.inner (constantFiles ⟨[.lone 0]⟩ f) "a.json" _ :=
    constantFiles_opened (by decide) unsplit f
  refine (opened.run_summary (constantDocument_loads _ f)).2.1
    (constantProgram_shortConstants_iff.mpr short) (mt takesNames_constantProgram_iff.mp ?_)
  intro taken
  cases taken (.lone 0) (List.mem_singleton_self _)

end CommandLine

end FieldProgram

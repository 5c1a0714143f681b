import FieldProgram.Artifact.Load
import FieldProgram.Proofs.Artifact.HintMembers

/-!
# What a loaded program has to do with its document

`read` is loading without the log. `Loads` says of each field of a program which section of the
document it comes from, and how.

* `outcome_load`: the log apart, loading is reading;
* `load_eq_ok_iff`: loading gives exactly the program that the sections make up.
-/

namespace FieldProgram.Artifact

open Log

/-! ## Loading without its log -/

/-- The program of a document, for an entry point and perhaps an expected prime, made in the given
room. -/
def read (room : Room) (d : Document) (entrypoint : Text) (expected : Option Int) :
    Except LoadFailure Program := do
  checkLayout room.inner d
  let prime ← prime (part "prime" d)
  checkPrime prime expected
  let data ← words prime (part "data" d)
  let identifiers ← identifiers prime (part "identifiers" d)
  let hints ← hints (part "hints" d)
  let references ← references (namings hints) (part "reference_manager" d)
  checkReferenceIds references.size hints
  return {
    prime
    builtins := builtins (part "builtins" d)
    data
    main := entryPc? identifiers entrypoint
    hints
    references
    identifiers }

theorem outcome_note (level : Level) (message : Text) : (note level message).outcome = .ok () := rfl

theorem outcome_noteEntry (symbols : List (Text × Identifier)) (entrypoint : Text) :
    (noteEntry symbols entrypoint).outcome = .ok () := by
  unfold noteEntry
  dsimp only
  split <;> rfl

theorem outcome_load (room : Room) (d : Document) (entrypoint : Text) (expected : Option Int) :
    (load room d entrypoint expected).outcome = read room d entrypoint expected := by
  have quiet {α : Type} (next : Unit → Except LoadFailure α) : (.ok () >>= next) = next () := rfl
  simp only [load, read, Run.outcome_bind, outcome_note, outcome_noteEntry, quiet]
  rfl

/-! ## Sections and fields -/

/-- The items of data. -/
def dataItems (d : Document) : List Document := (part "data" d).items?.getD []

/-- The members for symbols. -/
def symbolMembers (d : Document) : List (Text × Document) := (part "identifiers" d).members?.getD []

/-- The members for hints. -/
def hintSection (d : Document) : List (Text × Document) := (part "hints" d).members?.getD []

/-- The records of references. -/
def referenceRecords (d : Document) : List Document := referenceItems (part "reference_manager" d)

/-- The members describe the hints, each program counter once and with at least one hint. -/
def HintsHeldBy (ms : List (Text × Document)) (hints : List (Int × List Hint)) : Prop :=
  ∃ entries, List.Forall₂ (fun m entry => HintsDescribedBy entry m) ms entries ∧
    (entries.map Prod.fst).Nodup ∧ hints = entries.filter fun entry => !entry.2.isEmpty

theorem hints_eq_ok_iff {d : Document} {hs : List (Int × List Hint)} :
    hints d = .ok hs ↔ HintsHeldBy (d.members?.getD []) hs := by
  rw [hints, hintMembers_eq_ok_iff]
  simp [HintsHeldBy]

theorem HintsHeldBy.distinct {ms : List (Text × Document)} {hints : List (Int × List Hint)}
    (h : HintsHeldBy ms hints) : (hints.map Prod.fst).Nodup := by
  obtain ⟨entries, -, nodup, rfl⟩ := h
  exact (List.filter_sublist.map Prod.fst).nodup nodup

/-- Every entry has hints and comes from a member. -/
theorem HintsHeldBy.entry {ms : List (Text × Document)} {hints : List (Int × List Hint)}
    (h : HintsHeldBy ms hints) :
    ∀ entry ∈ hints, entry.2 ≠ [] ∧ ∃ m ∈ ms, HintsDescribedBy entry m := by
  obtain ⟨entries, described, -, rfl⟩ := h
  intro entry hentry
  obtain ⟨hmem, some_hint⟩ := List.mem_filter.mp hentry
  refine ⟨fun none => ?_, exists_left_of_forall₂ described entry hmem⟩
  simp [none] at some_hint

theorem HintsDescribedBy.hint {entry : Int × List Hint} {m : Text × Document}
    (h : HintsDescribedBy entry m) : ∀ hint ∈ entry.2, ∃ d, hint.DescribedBy d := by
  obtain ⟨-, -, ds, -, described⟩ := h
  intro hint hmem
  obtain ⟨d, -, hd⟩ := exists_left_of_forall₂ described hint hmem
  exact ⟨d, hd⟩

/-- The program counters of loaded hints come from keys that were read. -/
theorem HintsHeldBy.short {ms : List (Text × Document)} {hints : List (Int × List Hint)}
    (h : HintsHeldBy ms hints) : ∀ entry ∈ hints, Document.ShortInteger entry.1 := by
  intro entry hentry
  obtain ⟨-, m, -, denotes, length, -⟩ := h.entry entry hentry
  exact denotes.short length

/-- The sections of the document make up the program. -/
structure Loads (d : Document) (entrypoint : Text) (expected : Option Int) (p : Program) :
    Prop where
  layout : IsArtifact d
  prime : (part "prime" d).integer = .ok p.prime
  one_lt : 1 < p.prime
  expected : ∀ q, expected = some q → q = p.prime
  data : List.Forall₂ (fun v w => Word.DescribedBy p.prime w v) (dataItems d) p.data
  symbols : List.Forall₂ (fun m i => m.1 = i.1 ∧ SymbolDescribedBy p.prime i.2 m.2)
    (symbolMembers d) p.identifiers
  hints : HintsHeldBy (hintSection d) p.hints
  references : List.Forall₂ (NamedBy (namings p.hints)) (referenceRecords d).zipIdx
    p.references.references
  named : NamedBelow p.references.size p.hints
  builtins : p.builtins = builtins (part "builtins" d)
  main : p.main = entryPc? p.identifiers entrypoint

theorem checkLayout_eq_ok_iff {room : Room} {d : Document} :
    checkLayout room d = .ok () ↔ IsArtifact d := by
  rw [← violations_eq_nil_iff, checkLayout]
  cases violations d <;> simp [LoadError.fail_ne_ok]

/-- Loading goes no further than a broken layout. -/
theorem outcome_load_of_refused {room : Room} {d : Document} {f : LoadFailure}
    (refused : checkLayout room.inner d = .error f) (entrypoint : Text) (expected : Option Int) :
    (load room d entrypoint expected).outcome = .error f := by
  rw [outcome_load, read, refused]
  rfl

/-- The table of references is where references are looked for. -/
theorem IsArtifact.listed {d : Document} (h : IsArtifact d) :
    ∃ fs, part "reference_manager" d = .map fs ∧ Has "references" fs IsList := by
  obtain ⟨ms, rfl, layout⟩ := h
  obtain ⟨_, found, fs, rfl, listed⟩ := layout.references
  exact ⟨fs, by simp [part, Document.member?, Document.members?, found], listed⟩

theorem read_eq_ok_iff {room : Room} {d : Document} {entrypoint : Text} {expected : Option Int}
    {p : Program} : read room d entrypoint expected = .ok p ↔ Loads d entrypoint expected p := by
  simp only [read, Except.bind_eq_ok]
  constructor
  · rintro ⟨⟨⟩, hlayout, prime, hprime, ⟨⟩, hexpected, data, hdata, symbols, hsymbols, hints,
      hhints, references, hreferences, ⟨⟩, named, ⟨⟩⟩
    have layout := checkLayout_eq_ok_iff.mp hlayout
    obtain ⟨hprime, one_lt⟩ := prime_eq_ok_iff.mp hprime
    exact {
      layout := layout
      prime := hprime
      one_lt := one_lt
      expected := checkPrime_eq_ok_iff.mp hexpected
      data := (words_eq_ok_iff one_lt).mp hdata
      symbols := (identifiers_eq_ok_iff one_lt).mp hsymbols
      hints := hints_eq_ok_iff.mp hhints
      references := (references_eq_ok_iff layout.listed).mp hreferences
      named := checkReferenceIds_eq_ok_iff.mp named
      builtins := rfl
      main := rfl }
  · intro h
    refine ⟨(), checkLayout_eq_ok_iff.mpr h.layout,
      p.prime, prime_eq_ok_iff.mpr ⟨h.prime, h.one_lt⟩,
      (), checkPrime_eq_ok_iff.mpr h.expected, p.data, (words_eq_ok_iff h.one_lt).mpr h.data,
      p.identifiers, (identifiers_eq_ok_iff h.one_lt).mpr h.symbols, p.hints,
      hints_eq_ok_iff.mpr h.hints, p.references,
      (references_eq_ok_iff h.layout.listed).mpr h.references, (),
      checkReferenceIds_eq_ok_iff.mpr h.named, ?_⟩
    rw [← h.builtins, ← h.main]
    rfl

theorem load_eq_ok_iff {room : Room} {d : Document} {entrypoint : Text} {expected : Option Int}
    {p : Program} :
    (load room d entrypoint expected).outcome = .ok p ↔ Loads d entrypoint expected p := by
  rw [outcome_load, read_eq_ok_iff]

/-- A document has one program at most for each entry point. -/
theorem Loads.unique {d : Document} {entrypoint : Text} {expected : Option Int} {p q : Program}
    (h : Loads d entrypoint expected p) (h' : Loads d entrypoint expected q) : p = q := by
  have first : read Room.standard d entrypoint expected = .ok p := read_eq_ok_iff.mpr h
  have second : read Room.standard d entrypoint expected = .ok q := read_eq_ok_iff.mpr h'
  exact Except.ok.inj (first.symm.trans second)

/-! ## A sample -/

/-- The state of the allocation pointer at the start. -/
def sampleTracking : Document := .map [("group", .int 0), ("offset", .int 0)]

/-- The hint of the sample, which gives a name to its reference. -/
def sampleHint : Document := .map [
  ("code", .str "pass"),
  ("flow_tracking_data", .map [
    ("ap_tracking", sampleTracking),
    ("reference_ids", .map [("x", .int 0)])])]

/-- A small artifact with something in each of its sections. -/
def sample : Document := .map [
  ("prime", .str "0x11"),
  ("data", .list [.int (-1), .map [("segment_index", .int 0), ("offset", .int 3)]]),
  ("identifiers", .map [("__main__.main", .map [("pc", .int 0), ("value", .str "0x12")])]),
  ("hints", .map [("5", .list []), ("007", .list [sampleHint])]),
  ("reference_manager", .map [
    ("references", .list [
      .map [("ap_tracking_data", sampleTracking), ("value", .str "[cast(fp, felt*)]")]])])]

/-- The program of the sample. -/
def sampleProgram : Program where
  prime := 17
  data := [.felt ⟨16, 17, by decide, by decide⟩, .relocatable ⟨0, 3⟩]
  main := some 0
  hints := [(7, [⟨"pass", [], ⟨0, 0⟩, [("x", 0)]⟩])]
  references := ⟨[⟨"[cast(fp, felt*)]", ⟨0, 0⟩, none, some "x"⟩]⟩
  identifiers := [("__main__.main", ⟨some 0, none, some ⟨1, 17, by decide, by decide⟩⟩)]

theorem sample_isArtifact : IsArtifact sample :=
  isArtifact_of_members rfl (.inl ⟨_, rfl⟩) rfl rfl rfl (.of_found rfl ⟨_, rfl⟩) (.of_absent rfl)
    rfl

theorem sample_loads : Loads sample "main" none sampleProgram where
  layout := sample_isArtifact
  prime := rfl
  one_lt := by decide
  expected := by simp
  data := (words_eq_ok_iff (by decide)).mp rfl
  symbols := (identifiers_eq_ok_iff (by decide)).mp rfl
  hints := hints_eq_ok_iff.mp rfl
  references := (references_eq_ok_iff sample_isArtifact.listed).mp rfl
  named := checkReferenceIds_eq_ok_iff.mp rfl
  builtins := rfl
  main := rfl

end FieldProgram.Artifact

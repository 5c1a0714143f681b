import FieldProgram.Proofs.Artifact.Load
import FieldProgram.Proofs.Record.Known

/-!
# Loading documents that are the same in the parts that are read

Members that loading does not know have no influence on it: neither on the program nor on what is
refused, where and with which message, nor on the log. The one exception is a key in the record of
a symbol that is not a text of characters: the record is refused for it.

* `SameArtifact`: the relation that leaves all other members open;
* `SameArtifact.violations_eq`, `identifiers_eq`, `hints_eq`, `references_eq`: section by section;
* `load_sameArtifact`: the runs are one.
-/

namespace FieldProgram

open Document

variable {d e : Document} {ms ns : List (Text × Document)}

theorem isNone_of_rel {R : Document → Document → Prop} {a b : Option Document}
    (h : Option.Rel R a b) : a.isNone = b.isNone := by
  cases h <;> rfl

/-! ## Violations of schemas -/

namespace Schema

theorem memberOf?_map (name : String) (ms : List (Text × Document)) :
    memberOf? name (Document.map ms) = ms.lookup (name : Text) :=
  member?_labelled name ms

/-- Members of which the values violate their schemas alike. -/
theorem memberViolations_congr {path : List String} {members : List (String × Schema)}
    (alike : ∀ m ∈ members, Option.Rel
      (fun v w => ∀ path, m.2.violations path v = m.2.violations path w)
      (ms.lookup (m.1 : Text)) (ns.lookup (m.1 : Text))) :
    memberViolations path (Document.map ms) members =
      memberViolations path (Document.map ns) members := by
  induction members with
  | nil => rw [memberViolations, memberViolations]
  | cons m members ih =>
    obtain ⟨name, s⟩ := m
    obtain ⟨first, others⟩ := List.forall_mem_cons.mp alike
    rw [memberViolations, memberViolations, ih others, memberOf?_map, memberOf?_map]
    rcases rel_cases first with ⟨hv, hw⟩ | ⟨v, w, hv, hw, same⟩
    · rw [hv, hw]
    · rw [hv, hw]
      exact congrArg (· ++ _) (same (path ++ [name]))

theorem requiredBreaches_congr {required : List String}
    (alike : ∀ name ∈ required,
      (ms.lookup (name : Text)).isNone = (ns.lookup (name : Text)).isNone) :
    requiredBreaches required (Document.map ms) = requiredBreaches required (Document.map ns) := by
  show ((required.filter fun (n : String) =>
      (Layer.member? n (labelled ms)).isNone).map Breach.missing) =
    (required.filter fun (n : String) => (Layer.member? n (labelled ns)).isNone).map Breach.missing
  simp only [member?_labelled]
  rw [List.filter_congr alike]

/-- A schema that asks for a mapping with certain members. -/
theorem mapping_violations_congr {path : List String} {required : List String}
    {members : List (String × Schema)}
    (present : ∀ name ∈ required,
      (ms.lookup (name : Text)).isNone = (ns.lookup (name : Text)).isNone)
    (alike : ∀ m ∈ members, Option.Rel
      (fun v w => ∀ path, m.2.violations path v = m.2.violations path w)
      (ms.lookup (m.1 : Text)) (ns.lookup (m.1 : Text))) :
    violations path (Document.map ms) { types := [.object], required, members } =
      violations path (Document.map ns) { types := [.object], required, members } := by
  have types : ∀ ks, typeBreaches [.object] (Document.map ks) = [] := fun _ => rfl
  have others : ∀ ks, emptyBreaches false (Document.map ks) ++ choiceBreaches none (Document.map ks)
      ++ closedBreaches false (members.map Prod.fst) (Document.map ks) = [] := fun _ => rfl
  simp only [violations, types, others, itemViolations]
  rw [requiredBreaches_congr present, memberViolations_congr alike]

/-- Values of a type that is asked for. -/
theorem typed_violations_congr {path : List String} {type : SchemaType} {v w : Document}
    (hv : type.admits (layer v) = true) (hw : type.admits (layer w) = true) :
    violations path v { types := [type] } = violations path w { types := [type] } := by
  rw [typed_violations_eq_nil_iff.mpr (.inr ⟨type, List.mem_singleton_self _, hv⟩),
    typed_violations_eq_nil_iff.mpr (.inr ⟨type, List.mem_singleton_self _, hw⟩)]

end Schema

namespace Artifact

/-! ## Artifacts -/

/-- The parts that are read of a table of references. -/
def SameTable : Document → Document → Prop :=
  SameUnder [("references", SameItems SameReference)]

/-- The parts that are read of an artifact. -/
def SameArtifact : Document → Document → Prop :=
  SameUnder [
    ("prime", Eq),
    ("data", Eq),
    ("identifiers", SameMembers SameSymbol),
    ("hints", SameMembers (SameItems SameHint)),
    ("reference_manager", SameTable),
    ("builtins", Eq),
    ("main_scope", Eq),
    ("attributes", Eq),
    ("compiler_version", Eq),
    ("debug_info", Eq)]

/-- A part of an artifact that is known. -/
theorem part_related {parts : Parts} (same : SameUnder parts d e) {name : String}
    {R : Document → Document → Prop} (known : (name, R) ∈ parts) (refl : ∀ v, R v v) :
    R (part name d) (part name e) := by
  rcases same with rfl | ⟨ms, ns, rfl, rfl, related⟩
  · exact refl _
  · show R ((ms.lookup (name : Text)).getD .null) ((ns.lookup (name : Text)).getD .null)
    rcases rel_cases (related _ known) with ⟨hv, hw⟩ | ⟨v, w, hv, hw, same⟩
    · rw [hv, hw]
      exact refl _
    · rw [hv, hw]
      exact same

/-! ## Layout -/

theorem SameTable.violations_eq {path : List String} (same : SameTable d e) :
    Schema.violations path d {
      types := [.object]
      required := ["references"]
      members := [("references", { types := [.array] })] } =
    Schema.violations path e {
      types := [.object]
      required := ["references"]
      members := [("references", { types := [.array] })] } := by
  rcases same with rfl | ⟨ms, ns, rfl, rfl, related⟩
  · rfl
  · have references := related _ (List.mem_singleton_self _)
    refine Schema.mapping_violations_congr ?_ ?_
    · rintro name hname
      obtain rfl := List.mem_singleton.mp hname
      exact isNone_of_rel references
    · rintro m hm
      obtain rfl := List.mem_singleton.mp hm
      refine rel_imp references fun v w same path => ?_
      rcases same with rfl | ⟨xs, ys, rfl, rfl, -⟩
      · rfl
      · exact Schema.typed_violations_congr rfl rfl

theorem sameMembers_violations_eq {R : Document → Document → Prop} {path : List String}
    (same : SameMembers R d e) :
    Schema.violations path d { types := [.object] } =
      Schema.violations path e { types := [.object] } := by
  rcases same with rfl | ⟨ms, ns, rfl, rfl, -⟩
  · rfl
  · exact Schema.typed_violations_congr rfl rfl

theorem SameArtifact.violations_eq (same : SameArtifact d e) : violations d = violations e := by
  rcases same with rfl | ⟨ms, ns, rfl, rfl, related⟩
  · rfl
  · simp only [Parts.Relate, List.forall_mem_cons] at related
    obtain ⟨prime, data, identifiers, hints, references, builtins, scope, attributes, version,
      debug, -⟩ := related
    have plain {s : Schema} {a b : Option Document} (same : Option.Rel Eq a b) :
        Option.Rel (fun v w => ∀ path, s.violations path v = s.violations path w) a b :=
      rel_imp same fun v w same path => congrArg (s.violations path) same
    refine congrArg Schema.inOrder (Schema.mapping_violations_congr ?_ ?_)
    · simp only [List.forall_mem_cons]
      exact ⟨isNone_of_rel prime, isNone_of_rel data, isNone_of_rel identifiers,
        isNone_of_rel references, by simp⟩
    · simp only [List.forall_mem_cons]
      exact ⟨plain prime, plain data,
        rel_imp identifiers fun v w same path => sameMembers_violations_eq same,
        rel_imp hints fun v w same path => sameMembers_violations_eq same,
        rel_imp references fun v w same path => same.violations_eq, plain builtins, plain scope,
        plain attributes, plain version, plain debug, by simp⟩

/-! ## Symbols -/

/-- Of the records of symbols that belong together, both have keys of characters or neither. -/
def SameKeyKinds (d e : Document) : Prop :=
  List.Forall₂ (fun m n => m.2.HasCharacterKeys ↔ n.2.HasCharacterKeys) (symbolMembers d)
    (symbolMembers e)

theorem SameArtifact.identifiers_eq (same : SameArtifact d e) (keys : SameKeyKinds d e)
    (prime : Int) :
    identifiers prime (part "identifiers" d) = identifiers prime (part "identifiers" e) := by
  have related : SameMembers SameSymbol (part "identifiers" d) (part "identifiers" e) :=
    part_related same (by simp) fun _ => .inl rfl
  rcases related with same | ⟨ms, ns, hd, he, related⟩
  · rw [same]
  · rw [SameKeyKinds, symbolMembers, symbolMembers, hd, he] at keys
    rw [identifiers, identifiers, hd, he]
    refine Except.mapM_congr (related.mp (fun m n same kinds => ?_) keys)
    obtain ⟨name, v⟩ := m
    obtain ⟨_, w⟩ := n
    obtain ⟨rfl, same⟩ := same
    rw [namedIdentifier, namedIdentifier, identifier, identifier, same.check_eq kinds]

/-! ## Hints -/

theorem hintsFrom_congr {ds es : List Document} (same : List.Forall₂ SameHint ds es) (pc : Int)
    (position : Nat) : hintsFrom pc position ds = hintsFrom pc position es := by
  induction same generalizing position with
  | nil => rfl
  | cons first _ ih => rw [hintsFrom, hintsFrom, first.check_eq, ih]

theorem hintMembers_congr
    (same : List.Forall₂ (fun m n => m.1 = n.1 ∧ SameItems SameHint m.2 n.2) ms ns)
    (seen : List Int) : hintMembers seen ms = hintMembers seen ns := by
  induction same generalizing seen with
  | nil => rfl
  | @cons m n _ _ first _ ih =>
    obtain ⟨key, v⟩ := m
    obtain ⟨_, w⟩ := n
    obtain ⟨rfl, same⟩ := first
    rcases same with same | ⟨ds, es, hv, hw, same⟩
    · obtain rfl : v = w := same
      unfold hintMembers
      simp only [ih]
    · obtain rfl : v = .list ds := hv
      obtain rfl : w = .list es := hw
      cases same with
      | nil => simp only [hintMembers, ih]
      | cons first rest =>
        simp only [hintMembers, ih, hintsFrom_congr (.cons first rest)]

theorem SameArtifact.hints_eq (same : SameArtifact d e) :
    hints (part "hints" d) = hints (part "hints" e) := by
  have related : SameMembers (SameItems SameHint) (part "hints" d) (part "hints" e) :=
    part_related same (by simp) fun _ => .inl rfl
  rcases related with same | ⟨ms, ns, hd, he, related⟩
  · rw [same]
  · rw [hints, hints, hd, he]
    exact hintMembers_congr related []

/-! ## References -/

theorem referencesFrom_congr {ds es : List Document} (same : List.Forall₂ SameReference ds es)
    (names : List (Int × Text)) (index : Nat) :
    referencesFrom names index ds = referencesFrom names index es := by
  induction same generalizing index with
  | nil => rfl
  | cons first _ ih => rw [referencesFrom, referencesFrom, first.check_eq, ih]

theorem SameArtifact.references_eq (same : SameArtifact d e) (names : List (Int × Text)) :
    references names (part "reference_manager" d) =
      references names (part "reference_manager" e) := by
  have related : SameTable (part "reference_manager" d) (part "reference_manager" e) :=
    part_related same (by simp) fun _ => .inl rfl
  rcases related with same | ⟨ms, ns, hd, he, related⟩
  · rw [same]
  · rw [hd, he]
    rcases rel_cases (related _ (List.mem_singleton_self _)) with ⟨hv, hw⟩ | ⟨v, w, hv, hw, same⟩
    · simp only [references, hv, hw]
    · simp only [references, hv, hw]
      rcases same with rfl | ⟨ds, es, rfl, rfl, same⟩
      · rfl
      · exact congrArg (·.map ReferenceTable.mk) (referencesFrom_congr same names 0)

/-! ## Runs -/

/-- Loading sees no difference between documents that are the same in the parts it reads. -/
theorem load_sameArtifact (room : Room) (same : SameArtifact d e) (keys : SameKeyKinds d e)
    (entrypoint : Text) (expected : Option Int) :
    load room d entrypoint expected = load room e entrypoint expected := by
  have layout : checkLayout room.inner d = checkLayout room.inner e := by
    unfold checkLayout
    rw [same.violations_eq]
  have prime : part "prime" d = part "prime" e := part_related same (by simp) fun _ => rfl
  have data : part "data" d = part "data" e := part_related same (by simp) fun _ => rfl
  have builtins : part "builtins" d = part "builtins" e := part_related same (by simp) fun _ => rfl
  unfold load
  simp only [layout, prime, data, builtins, same.identifiers_eq keys, same.hints_eq,
    same.references_eq]

/-! ## A key that is seen -/

/-- An artifact with one symbol, of which the record is given. -/
def symbolDocument (record : List (Text × Document)) : Document := .map [
  ("prime", .int 17),
  ("data", .list []),
  ("identifiers", .map [("a", .map record)]),
  ("reference_manager", .map [("references", .list [])])]

theorem checkLayout_symbolDocument (room : Room) (record : List (Text × Document)) :
    checkLayout room (symbolDocument record) = .ok () :=
  checkLayout_eq_ok_iff.mpr <| isArtifact_of_members rfl (.inr (.inl ⟨_, rfl⟩)) rfl rfl rfl
    (.of_absent rfl) (.of_absent rfl) rfl

theorem symbolDocument_same {record record' : List (Text × Document)}
    (same : SameSymbol (.map record) (.map record')) :
    SameArtifact (symbolDocument record) (symbolDocument record') := by
  refine .inr ⟨_, _, rfl, rfl, ?_⟩
  simp only [Parts.Relate, List.forall_mem_cons]
  refine ⟨.some rfl, .some rfl, .some ?_, .none, .some (.inl rfl), .none, .none, .none, .none,
    .none, by simp⟩
  exact .inr ⟨_, _, rfl, rfl, .cons ⟨rfl, same⟩ .nil⟩

/-- A size in the record of a symbol changes nothing. -/
theorem load_symbolDocument_size :
    load .standard (symbolDocument []) "main" none =
      load .standard (symbolDocument [("size", .int 1)]) "main" none := by
  have same : SameSymbol (.map []) (.map [("size", .int 1)]) := by
    refine .inr ⟨_, _, rfl, rfl, ?_⟩
    simp only [Parts.Relate, List.forall_mem_cons]
    exact ⟨.none, .none, .none, by simp⟩
  have keys : SameKeyKinds (symbolDocument []) (symbolDocument [("size", .int 1)]) := by
    refine .cons ⟨fun _ m hm => ?_, fun _ m hm => ?_⟩ .nil
    · obtain rfl := List.mem_singleton.mp hm
      decide
    · cases hm
  exact load_sameArtifact .standard (symbolDocument_same same) keys "main" none

/-- Half of a surrogate pair. -/
def loneKey : Text := ⟨[.lone ⟨0, by decide⟩]⟩

/-- A member under a key that is not known decides whether the artifact loads. -/
theorem load_loneKey :
    SameArtifact (symbolDocument []) (symbolDocument [(loneKey, .int 1)]) ∧
      (∃ p, (load .standard (symbolDocument []) "main" none).outcome = .ok p) ∧
      ∃ e, (load .standard (symbolDocument [(loneKey, .int 1)]) "main" none).outcome =
        .error (.rejected e) ∧ e.area = .identifier := by
  refine ⟨symbolDocument_same ?_, ?_, ?_⟩
  · refine .inr ⟨_, _, rfl, rfl, ?_⟩
    simp only [Parts.Relate, List.forall_mem_cons]
    exact ⟨.none, .none, .none, by simp⟩
  · refine ⟨{ prime := 17, identifiers := [("a", {})] }, ?_⟩
    rw [outcome_load, read, checkLayout_symbolDocument]
    rfl
  · refine ⟨.badIdentifier (some "a") [⟨[], .notCharacters⟩], ?_, rfl⟩
    rw [outcome_load, read, checkLayout_symbolDocument]
    rfl

end Artifact

end FieldProgram

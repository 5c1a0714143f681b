import FieldProgram.Artifact.Layout
import FieldProgram.Proofs.Schema.Basic

/-!
# The documents that keep to the layout

What the layout asks of a document, stated on its members.

* `violations_eq_nil_iff`: a document has no violation exactly when it is an artifact.
-/

namespace FieldProgram

namespace Artifact

/-! ## Grammar -/

/-- There is a member under the name, and it is as asked. -/
def Has (name : String) (ms : List (Text × Document)) (asked : Document → Prop) : Prop :=
  ∃ v, ms.lookup (name : Text) = some v ∧ asked v

/-- A member under the name is as asked, where there is one. -/
def May (name : String) (ms : List (Text × Document)) (asked : Document → Prop) : Prop :=
  ∀ v, ms.lookup (name : Text) = some v → asked v

def IsText (d : Document) : Prop := ∃ t, d = .str t

def IsList (d : Document) : Prop := ∃ xs, d = .list xs

def IsMapping (d : Document) : Prop := ∃ ms, d = .map ms

/-- A number that equals an integer, in whatever way it is written. -/
def IsIntegral (d : Document) : Prop :=
  (∃ n, d = .int n) ∨ ∃ x : Binary64, d = .float x ∧ x.toInt?.isSome

theorem has_iff {name : String} {ms : List (Text × Document)} {asked : Document → Prop} :
    Has name ms asked ↔ (∃ v, ms.lookup (name : Text) = some v) ∧ May name ms asked := by
  constructor
  · rintro ⟨v, hv, h⟩
    exact ⟨⟨v, hv⟩, fun v' hv' => Option.some.inj (hv.symm.trans hv') ▸ h⟩
  · rintro ⟨⟨v, hv⟩, h⟩
    exact ⟨v, hv, h v hv⟩

theorem May.of_absent {name : String} {ms : List (Text × Document)} {asked : Document → Prop}
    (absent : ms.lookup (name : Text) = none) : May name ms asked := by
  intro v found
  cases absent.symm.trans found

theorem May.of_found {name : String} {ms : List (Text × Document)} {asked : Document → Prop}
    {v : Document} (found : ms.lookup (name : Text) = some v) (h : asked v) :
    May name ms asked := by
  intro v' found'
  obtain rfl := Option.some.inj (found.symm.trans found')
  exact h

/-- The members of an artifact. Members that are not named here may be anything. -/
structure HasLayout (ms : List (Text × Document)) : Prop where
  prime : Has "prime" ms fun v => IsText v ∨ IsIntegral v
  data : Has "data" ms IsList
  identifiers : Has "identifiers" ms IsMapping
  references : Has "reference_manager" ms fun v => ∃ fs, v = .map fs ∧ Has "references" fs IsList
  hints : May "hints" ms IsMapping
  builtins : May "builtins" ms fun v => ∃ xs, v = .list xs ∧ ∀ x ∈ xs, IsText x
  mainScope : May "main_scope" ms IsText
  attributes : May "attributes" ms IsList
  compilerVersion : May "compiler_version" ms IsText
  debugInfo : May "debug_info" ms fun v => IsMapping v ∨ v = .null

/-- The document is laid out as an artifact. -/
def IsArtifact (d : Document) : Prop := ∃ ms, d = .map ms ∧ HasLayout ms

/-- Of the members that may be left out, loading reads the hints and the builtins only. An artifact
can do without the others. -/
theorem isArtifact_of_members {ms symbols : List (Text × Document)} {number : Document}
    {words references : List Document}
    (prime : ms.lookup ("prime" : Text) = some number) (numeric : IsText number ∨ IsIntegral number)
    (data : ms.lookup ("data" : Text) = some (.list words))
    (identifiers : ms.lookup ("identifiers" : Text) = some (.map symbols))
    (table : ms.lookup ("reference_manager" : Text) =
      some (.map [("references", .list references)]))
    (hints : May "hints" ms IsMapping)
    (builtins : May "builtins" ms fun v => ∃ xs, v = .list xs ∧ ∀ x ∈ xs, IsText x)
    (others : ["main_scope", "attributes", "compiler_version", "debug_info"].all fun (n : String) =>
      (ms.lookup (n : Text)).isNone) :
    IsArtifact (.map ms) := by
  simp only [List.all_cons, List.all_nil, Bool.and_true, Bool.and_eq_true,
    Option.isNone_iff_eq_none] at others
  obtain ⟨mainScope, attributes, compilerVersion, debugInfo⟩ := others
  exact ⟨ms, rfl, {
    prime := ⟨number, prime, numeric⟩
    data := ⟨_, data, words, rfl⟩
    identifiers := ⟨_, identifiers, symbols, rfl⟩
    references := ⟨_, table, _, rfl, _, rfl, references, rfl⟩
    hints
    builtins
    mainScope := .of_absent mainScope
    attributes := .of_absent attributes
    compilerVersion := .of_absent compilerVersion
    debugInfo := .of_absent debugInfo }⟩

end Artifact

/-! ## Types -/

namespace SchemaType

theorem string_admits {d : Document} : string.admits (layer d) = true ↔ Artifact.IsText d := by
  cases d <;> simp [admits, layer, Document.outer, Artifact.IsText]

theorem array_admits {d : Document} : array.admits (layer d) = true ↔ Artifact.IsList d := by
  cases d <;> simp [admits, layer, Document.outer, Artifact.IsList]

theorem object_admits {d : Document} : object.admits (layer d) = true ↔ Artifact.IsMapping d := by
  cases d <;> simp [admits, layer, Document.outer, Artifact.IsMapping]

theorem integer_admits {d : Document} :
    integer.admits (layer d) = true ↔ Artifact.IsIntegral d := by
  cases d <;> simp [admits, layer, Document.outer, Artifact.IsIntegral]

theorem null_admits {d : Document} : null.admits (layer d) = true ↔ d = .null := by
  cases d <;> simp [admits, layer, Document.outer]

end SchemaType

/-! ## Schemas of mappings and of lists -/

namespace Schema

theorem memberViolations_map_eq_nil_iff {path : List String} {ms : List (Text × Document)}
    {members : List (String × Schema)} :
    memberViolations path (Document.map ms) members = [] ↔
      ∀ m ∈ members, Artifact.May m.1 ms fun v => m.2.violations (path ++ [m.1]) v = [] := by
  have found (name : String) : memberOf? name (Document.map ms) = ms.lookup (name : Text) :=
    Document.member?_labelled name ms
  simp only [memberViolations_eq_nil_iff, found, Artifact.May]

theorem requiredBreaches_eq_nil_iff {required : List String} {ms : List (Text × Document)} :
    requiredBreaches required (Document.map ms) = [] ↔
      ∀ name ∈ required, ∃ v, ms.lookup (name : Text) = some v := by
  show ((required.filter fun (n : String) =>
    (Layer.member? n (Document.labelled ms)).isNone).map Breach.missing) = [] ↔ _
  simp only [Document.member?_labelled, List.map_eq_nil_iff, List.filter_eq_nil_iff]
  refine forall₂_congr fun name _ => ?_
  cases ms.lookup (name : Text) <;> simp

/-- A schema that asks for a mapping with certain members. -/
theorem mapping_violations_eq_nil_iff {path : List String} {d : Document}
    {required : List String} {members : List (String × Schema)} :
    violations path d { types := [.object], required, members } = [] ↔
      ∃ ms, d = .map ms ∧ (∀ name ∈ required, ∃ v, ms.lookup (name : Text) = some v) ∧
        ∀ m ∈ members, Artifact.May m.1 ms fun v => m.2.violations (path ++ [m.1]) v = [] := by
  rw [violations_eq_nil_iff, typeBreaches_eq_nil_iff]
  simp only [List.cons_ne_nil, false_or, List.mem_singleton, exists_eq_left,
    SchemaType.object_admits]
  constructor
  · rintro ⟨⟨⟨ms, rfl⟩, hrequired⟩, hmembers, -⟩
    exact ⟨ms, rfl, requiredBreaches_eq_nil_iff.mp hrequired,
      memberViolations_map_eq_nil_iff.mp hmembers⟩
  · rintro ⟨ms, rfl, hrequired, hmembers⟩
    exact ⟨⟨⟨ms, rfl⟩, requiredBreaches_eq_nil_iff.mpr hrequired⟩,
      memberViolations_map_eq_nil_iff.mpr hmembers, itemViolations_none _ _, rfl, rfl, rfl⟩

/-- A schema that asks for a list of texts. -/
theorem texts_violations_eq_nil_iff {path : List String} {d : Document} :
    violations path d { types := [.array], items := some { types := [.string] } } = [] ↔
      ∃ xs, d = .list xs ∧ ∀ x ∈ xs, Artifact.IsText x := by
  rw [violations_eq_nil_iff, typeBreaches_eq_nil_iff, itemViolations_eq_nil_iff]
  simp only [List.cons_ne_nil, false_or, List.mem_singleton, exists_eq_left,
    SchemaType.array_admits, typed_violations_eq_nil_iff, SchemaType.string_admits]
  constructor
  · rintro ⟨⟨⟨xs, rfl⟩, -⟩, -, hitems, -⟩
    refine ⟨xs, rfl, fun x hx => ?_⟩
    obtain ⟨n, hn⟩ := List.mem_iff_getElem?.mp hx
    exact hitems (x, n) (List.mem_zipIdx_iff_getElem?.mpr hn)
  · rintro ⟨xs, rfl, hitems⟩
    refine ⟨⟨⟨xs, rfl⟩, rfl⟩, memberViolations_nil _ _, fun p hp => ?_, rfl, rfl, rfl⟩
    exact hitems _ (List.fst_mem_of_mem_zipIdx hp)

end Schema

/-! ## The layout -/

namespace Artifact

theorem violations_eq_nil_iff {d : Document} : violations d = [] ↔ IsArtifact d := by
  rw [violations, Schema.inOrder_eq_nil_iff, layout, Schema.mapping_violations_eq_nil_iff]
  refine exists_congr fun ms => and_congr_right fun _ => ?_
  simp only [List.forall_mem_cons, List.not_mem_nil, false_imp_iff, implies_true, and_true,
    Schema.mapping_violations_eq_nil_iff, Schema.texts_violations_eq_nil_iff,
    Schema.typed_violations_eq_nil_iff]
  simp only [List.mem_cons, List.not_mem_nil, or_false, exists_eq_or_imp, exists_eq_left,
    List.cons_ne_nil, false_or, SchemaType.string_admits, SchemaType.array_admits,
    SchemaType.object_admits, SchemaType.integer_admits, SchemaType.null_admits, ← has_iff]
  constructor
  · rintro ⟨⟨hprime, hdata, hidentifiers, htable⟩, prime, data, identifiers, hints, table, builtins,
      scope, attributes, version, debug⟩
    exact {
      prime := has_iff.mpr ⟨hprime, prime⟩
      data := has_iff.mpr ⟨hdata, data⟩
      identifiers := has_iff.mpr ⟨hidentifiers, identifiers⟩
      references := has_iff.mpr ⟨htable, table⟩
      hints := hints
      builtins := builtins
      mainScope := scope
      attributes := attributes
      compilerVersion := version
      debugInfo := debug }
  · intro h
    obtain ⟨hprime, prime⟩ := has_iff.mp h.prime
    obtain ⟨hdata, data⟩ := has_iff.mp h.data
    obtain ⟨hidentifiers, identifiers⟩ := has_iff.mp h.identifiers
    obtain ⟨htable, table⟩ := has_iff.mp h.references
    exact ⟨⟨hprime, hdata, hidentifiers, htable⟩, prime, data, identifiers, h.hints, table,
      h.builtins, h.mainScope, h.attributes, h.compilerVersion, h.debugInfo⟩

end Artifact

end FieldProgram

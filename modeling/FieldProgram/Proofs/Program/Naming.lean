import FieldProgram.Proofs.Artifact.Reordered
import FieldProgram.Proofs.Program.Hints
import FieldProgram.Proofs.Reference.Table

/-!
# The names of loaded references

A reference has the name that its own record says, the empty name too. Where the record says none,
the first name counts that a hint gives to its index: the hints are gone through in the order of the
document, those of one program counter in the order of their list, and the names of one hint in the
order of its record.

* `namingMembers_eq`: what the hints of the program name is what those of the document name;
* `NamedFrom`, `NamedBy.namedFrom`: where the name of one reference is from;
* `load_named`: the names of all references of loaded programs, and their look-up.
-/

namespace FieldProgram.Artifact

/-! ## Names that hints give -/

/-- The names that the record of a hint gives, each with an index. -/
def idsIn (record : Document) : List (Text × Document) :=
  (((record.member? ("flow_tracking_data" : Text)).bind
    (·.member? ("reference_ids" : Text))).bind Document.members?).getD []

/-- The names that hints give, in the order of the document. -/
def namingMembers (ms : List (Text × Document)) : List (Text × Document) :=
  (ms.flatMap hintRecords).flatMap idsIn

/-- The name and the index as they are in a document. -/
def namingMember (n : Int × Text) : Text × Document := (n.2, .int n.1)

theorem idsIn_of_describedBy {h : Hint} {d : Document} (described : Hint.DescribedBy h d) :
    idsIn d = h.referenceIds.map fun id => namingMember (id.2, id.1) := by
  obtain ⟨ms, rfl, -, -, fs, flow, -, ids⟩ := described
  have found : idsIn (.map ms) = ((fs.lookup ("reference_ids" : Text)).bind
      Document.members?).getD [] := by
    simp only [idsIn, Document.member?, Document.members?, Option.bind_some, flow]
  rw [found]
  rcases ids with ⟨absent, none⟩ | ⟨present, -⟩
  · rw [absent, none]
    rfl
  · rw [present]
    rfl

theorem namingMembers_eq {ms : List (Text × Document)} {hints : List (Int × List Hint)}
    (held : HintsHeldBy ms hints) : namingMembers ms = (namings hints).map namingMember := by
  have given : List.Forall₂ Eq (namingMembers ms)
      ((hints.flatMap Prod.snd).flatMap fun h =>
        h.referenceIds.map fun id => namingMember (id.2, id.1)) := by
    refine List.rel_flatMap held.all fun d h described => ?_
    rw [idsIn_of_describedBy described, List.forall₂_eq_eq_eq]
  rw [List.forall₂_eq_eq_eq] at given
  rw [given, namings, List.flatMap_assoc, List.map_flatMap]
  simp only [List.map_flatMap, List.map_map]
  rfl

theorem namingMember_ne_iff {n : Int × Text} {i : Int} :
    (namingMember n).2 ≠ .int i ↔ (i != n.1) = true := by
  rw [bne_iff_ne, ne_comm]
  exact not_congr ⟨Document.int.inj, fun same => congrArg Document.int same⟩

/-- The name is given to the index, and none before it is. -/
def FirstGiven (given : List (Text × Document)) (i : Nat) (name : Text) : Prop :=
  ∃ before after, given = before ++ (name, .int i) :: after ∧ ∀ m ∈ before, m.2 ≠ .int i

theorem lookup_eq_some_iff_firstGiven {names : List (Int × Text)} {i : Nat} {name : Text} :
    names.lookup (i : Int) = some name ↔ FirstGiven (names.map namingMember) i name := by
  rw [List.lookup_eq_some_iff]
  constructor
  · rintro ⟨before, after, rfl, others⟩
    refine ⟨before.map namingMember, after.map namingMember, by simp [namingMember], ?_⟩
    rw [List.forall_mem_map]
    exact fun n hn => namingMember_ne_iff.mpr (others n hn)
  · rintro ⟨before, after, split, others⟩
    obtain ⟨first, rest, rfl, rfl, rest_eq⟩ := List.map_eq_append_iff.mp split
    obtain ⟨⟨index, own⟩, last, rfl, same, -⟩ := List.map_eq_cons_iff.mp rest_eq
    obtain ⟨rfl, index_eq⟩ := Prod.mk.inj same
    obtain rfl := Document.int.inj index_eq
    rw [List.forall_mem_map] at others
    exact ⟨first, last, rfl, fun n hn => namingMember_ne_iff.mp (others n hn)⟩

theorem lookup_eq_none_iff_not_given {names : List (Int × Text)} {i : Nat} :
    names.lookup (i : Int) = none ↔ ∀ m ∈ names.map namingMember, m.2 ≠ .int i := by
  rw [List.lookup_eq_none_iff, List.forall_mem_map]
  exact forall₂_congr fun n _ => namingMember_ne_iff.symm

/-! ## Names of references -/

/-- The name is the one in the record; where the record has none, it is the first one given to the
index; where none is given either, there is no name. -/
def NamedFrom (given : List (Text × Document)) (record : Document) (i : Nat)
    (name : Option Text) : Prop :=
  (∃ own, record.member? ("name" : Text) = some (.str own) ∧ name = some own) ∨
    Nameless record ∧
      ((∃ first, FirstGiven given i first ∧ name = some first) ∨
        (∀ m ∈ given, m.2 ≠ .int i) ∧ name = none)

theorem NamedBy.namedFrom {names : List (Int × Text)} {record : Document} {i : Nat}
    {r : Reference} (named : NamedBy names (record, i) r) :
    NamedFrom (names.map namingMember) record i r.name := by
  obtain ⟨own, described, rfl⟩ := named
  cases name : own.name with
  | some t =>
    obtain ⟨ms, rfl, -, -, -, holds⟩ := described
    rw [name] at holds
    obtain ⟨_, present, rfl⟩ := holds
    exact .inl ⟨t, present, by simp [Reference.named, name]⟩
  | none =>
    have given : (own.named (names.lookup (i : Int))).name = names.lookup (i : Int) := by
      simp [Reference.named, name]
    refine .inr ⟨nameless_of_describedBy described name, ?_⟩
    rw [given]
    cases found : names.lookup (i : Int) with
    | some first => exact .inl ⟨first, lookup_eq_some_iff_firstGiven.mp found, rfl⟩
    | none => exact .inr ⟨lookup_eq_none_iff_not_given.mp found, rfl⟩

/-- Each reference has the name of its record or the first that the hints give to it, and the table
finds the last of a name and lists the names in order. -/
theorem load_named {room : Room} {d : Document} {entrypoint : Text} {expected : Option Int}
    {p : Program} (h : (load room d entrypoint expected).outcome = .ok p) :
    p.references.size = (referenceRecords d).length ∧
      (∀ i r, p.references.references[i]? = some r →
        ∃ record, (referenceRecords d)[i]? = some record ∧
          NamedFrom (namingMembers (hintSection d)) record i r.name) ∧
      p.references.Resolves := by
  have loads := load_eq_ok_iff.mp h
  refine ⟨loads.size, fun i r found => ?_, p.references.resolves⟩
  obtain ⟨record, hrecord, named⟩ := loads.reference found
  refine ⟨record, hrecord, ?_⟩
  rw [namingMembers_eq loads.hints]
  exact named.namedFrom

/-- Of two names that a hint gives to a reference the first counts. -/
theorem load_named_twoNames :
    (load .standard (twoNames "x" "y") "main" none).outcome = .ok (twoNamesProgram "x" "y") ∧
      (twoNamesProgram "x" "y").references.names = ["x"] ∧
      (∃ r, (twoNamesProgram "x" "y").references.lookup "x" = some r ∧
        NamedFrom [("x", .int 0), ("y", .int 0)]
          (.map [("ap_tracking_data", sampleTracking), ("value", .str "[cast(fp, felt*)]")]) 0
          r.name) ∧
      (twoNamesProgram "x" "y").references.lookup "y" = none := by
  have loaded := twoNames_loads "x" "y"
  obtain ⟨-, named, resolves⟩ := load_named loaded
  obtain ⟨record, found, from_⟩ := named 0 _ rfl
  obtain rfl := Option.some.inj found
  refine ⟨loaded, rfl, ⟨_, (resolves.last _ _).mpr ⟨0, rfl, rfl, ?_⟩, from_⟩, ?_⟩
  · rintro (_ | _) s hs -
    · exact Nat.le_refl 0
    · cases hs
  · rw [resolves.absent]
    decide

end FieldProgram.Artifact

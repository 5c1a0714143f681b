import FieldProgram.Proofs.Document.Every
import FieldProgram.Proofs.Program.Reload

/-!
# What holds of every integer and every text in a program

`Program.Every P Q` says that `P` holds of all integers in a program and `Q` of all its texts, the
field elements and the prime apart.

* `Artifact.Loads.every`: what holds everywhere in a document holds everywhere in its program;
* `Program.every_artifact`: in the artifact of a program it holds besides of the values of symbols;
* `Artifact.Loads.short_artifact_iff`: so these alone decide whether the artifact is short.
-/

namespace FieldProgram

open Numeral

variable {P : Int → Prop} {Q : Text → Prop}

/-! ## Parts of programs -/

structure ApTracking.Every (P : Int → Prop) (t : ApTracking) : Prop where
  group : P t.group
  offset : P t.offset

structure Hint.Every (P : Int → Prop) (Q : Text → Prop) (h : Hint) : Prop where
  code : Q h.code
  scopes : ∀ s ∈ h.scopes, Q s
  tracking : h.apTracking.Every P
  ids : ∀ id ∈ h.referenceIds, Q id.1 ∧ P id.2

/-- The value of the symbol is left out. -/
structure Identifier.Every (P : Int → Prop) (Q : Text → Prop) (i : Identifier) : Prop where
  pc : ∀ n ∈ i.pc, P n
  type : ∀ t ∈ i.type, Q t

structure Reference.Every (P : Int → Prop) (Q : Text → Prop) (r : Reference) : Prop where
  value : Q r.value
  tracking : r.apTracking.Every P
  pc : ∀ n ∈ r.pc, P n
  name : ∀ t ∈ r.name, Q t

def Word.Every (P : Int → Prop) : Word → Prop
  | .felt _ => True
  | .relocatable r => P r.segment ∧ P r.offset

/-- The prime, the field elements and the program counters of hints are left out. -/
structure Program.Every (P : Int → Prop) (Q : Text → Prop) (p : Program) : Prop where
  builtins : ∀ t ∈ p.builtins, Q t
  data : ∀ w ∈ p.data, w.Every P
  hints : ∀ entry ∈ p.hints, ∀ h ∈ entry.2, h.Every P Q
  references : ∀ r ∈ p.references.references, r.Every P Q
  identifiers : ∀ i ∈ p.identifiers, Q i.1 ∧ i.2.Every P Q

/-! ## Records that describe -/

theorem IsNatural.every {d : Document} {n : Int} (h : IsNatural d n) (every : d.Every P Q) :
    P n := by
  obtain ⟨rfl, -⟩ := h
  exact Document.every_int.mp every

theorem Holds.every {α : Type} {name : Text} {ms : List (Text × Document)}
    {means : Document → α → Prop} {R : α → Prop} {o : Option α} (h : Holds name ms means o)
    (every : (Document.map ms).Every P Q) (part : ∀ d a, means d a → d.Every P Q → R a) :
    ∀ a ∈ o, R a := by
  rintro a ⟨⟩
  obtain ⟨d, found, meant⟩ := h
  exact part d a meant (every.of_lookup found)

theorem ApTracking.DescribedBy.every {t : ApTracking} {d : Document} (h : t.DescribedBy d)
    (every : d.Every P Q) : t.Every P := by
  obtain ⟨ms, rfl, ⟨g, hg, group⟩, o, ho, offset⟩ := h
  exact ⟨group.every (every.of_lookup hg), offset.every (every.of_lookup ho)⟩

theorem Hint.IdsDescribedBy.every {ids : List (Text × Int)} {fs : List (Text × Document)}
    (h : IdsDescribedBy ids fs) (every : (Document.map fs).Every P Q) :
    ∀ id ∈ ids, Q id.1 ∧ P id.2 := by
  rcases h with ⟨-, rfl⟩ | ⟨found, -⟩
  · simp
  · have members := Document.every_map.mp (every.of_lookup found)
    simpa only [List.forall_mem_map, Document.every_int] using members

theorem Hint.DescribedBy.every {h : Hint} {d : Document} (described : h.DescribedBy d)
    (every : d.Every P Q) : h.Every P Q := by
  obtain ⟨ms, rfl, code, scopes, fs, hfs, ⟨t, ht, tracking⟩, ids⟩ := described
  have flow := every.of_lookup hfs
  refine ⟨Document.every_str.mp (every.of_lookup code), ?_, tracking.every (flow.of_lookup ht),
    ids.every flow⟩
  rcases scopes with ⟨-, none⟩ | found
  · simp [none]
  · simpa using every.of_lookup found

theorem IdentifierRecord.DescribedBy.every {r : IdentifierRecord} {d : Document}
    (h : r.DescribedBy d) (every : d.Every P Q) : (∀ n ∈ r.pc, P n) ∧ ∀ t ∈ r.type, Q t := by
  obtain ⟨ms, rfl, -, pc, type, -⟩ := h
  refine ⟨pc.every every fun _ _ natural => natural.every, type.every every ?_⟩
  rintro _ t rfl
  exact Document.every_str.mp

theorem Reference.DescribedBy.every {r : Reference} {d : Document} (h : r.DescribedBy d)
    (every : d.Every P Q) : r.Every P Q := by
  obtain ⟨ms, rfl, ⟨t, ht, tracking⟩, pc, value, name⟩ := h
  refine ⟨Document.every_str.mp (every.of_lookup value), tracking.every (every.of_lookup ht),
    pc.every every fun _ _ natural => natural.every, name.every every ?_⟩
  rintro _ t rfl
  exact Document.every_str.mp

theorem Word.DescribedBy.every {prime : Int} {w : Word} {d : Document}
    (h : w.DescribedBy prime d) (every : d.Every P Q) : w.Every P := by
  cases w with
  | felt f => trivial
  | relocatable r =>
    obtain ⟨ms, rfl, -, segment, offset⟩ := h
    exact ⟨Document.every_int.mp (every.of_lookup segment),
      Document.every_int.mp (every.of_lookup offset)⟩

/-! ## Loaded programs -/

namespace Artifact

theorem part_every {d : Document} (every : d.Every P Q) (name : String) :
    (part name d).Every P Q := by
  rw [part]
  cases found : d.member? name with
  | none => exact Document.every_null
  | some v => exact every.of_member? found

theorem SymbolDescribedBy.every {prime : Int} {i : Identifier} {d : Document}
    (h : SymbolDescribedBy prime i d) (every : d.Every P Q) : i.Every P Q := by
  obtain ⟨r, described, pc, type, -⟩ := h
  obtain ⟨hpc, htype⟩ := described.every every
  exact ⟨pc ▸ hpc, type ▸ htype⟩

theorem HintsHeldBy.every {ms : List (Text × Document)} {hints : List (Int × List Hint)}
    (h : HintsHeldBy ms hints) (every : ∀ m ∈ ms, Q m.1 ∧ m.2.Every P Q) :
    ∀ entry ∈ hints, ∀ hint ∈ entry.2, hint.Every P Q := by
  intro entry hentry hint hmem
  obtain ⟨-, m, hm, -, -, ds, hds, described⟩ := h.entry entry hentry
  obtain ⟨d, hd, described⟩ := exists_left_of_forall₂ described hint hmem
  have items := Document.every_list.mp (hds ▸ (every m hm).2)
  exact described.every (items d hd)

theorem namings_every {hints : List (Int × List Hint)}
    (every : ∀ entry ∈ hints, ∀ h ∈ entry.2, h.Every P Q) :
    ∀ naming ∈ namings hints, Q naming.2 := by
  intro naming hmem
  obtain ⟨entry, hentry, hmem⟩ := List.mem_flatMap.mp hmem
  obtain ⟨h, hh, hmem⟩ := List.mem_flatMap.mp hmem
  obtain ⟨id, hid, rfl⟩ := List.mem_map.mp hmem
  exact ((every entry hentry h hh).ids id hid).1

/-- A reference has its own name or one from the hints. -/
theorem NamedBy.every {names : List (Int × Text)} {item : Document × Nat} {r : Reference}
    (h : NamedBy names item r) (every : item.1.Every P Q) (named : ∀ naming ∈ names, Q naming.2) :
    r.Every P Q := by
  obtain ⟨own, described, rfl⟩ := h
  obtain ⟨value, tracking, pc, name⟩ := described.every every
  refine ⟨value, tracking, pc, fun t ht => ?_⟩
  rcases Option.or_eq_some_iff.mp ht with own | ⟨-, given⟩
  · exact name t own
  · obtain ⟨before, after, rfl, -⟩ := List.lookup_eq_some_iff.mp given
    exact named ((item.2 : Int), t) (by simp)

theorem referenceItems_every {d : Document} (every : d.Every P Q) :
    ∀ x ∈ referenceItems d, x.Every P Q := by
  rw [referenceItems]
  cases found : d.member? "references" with
  | none => simp
  | some v => exact (every.of_member? found).of_items?

theorem builtins_every {d : Document} (every : d.Every P Q) : ∀ t ∈ builtins d, Q t := by
  intro t ht
  obtain ⟨x, hx, text⟩ := List.mem_filterMap.mp ht
  cases x with
  | str s =>
    obtain rfl := Option.some.inj text
    exact Document.every_str.mp (every.of_items? _ hx)
  | _ => cases text

theorem Loads.every {d : Document} {entrypoint : Text} {expected : Option Int} {p : Program}
    (h : Loads d entrypoint expected p) (every : d.Every P Q) : p.Every P Q := by
  have hints := h.hints.every (part_every every "hints").of_members?
  refine ⟨?_, ?_, hints, ?_, ?_⟩
  · rw [h.builtins]
    exact builtins_every (part_every every "builtins")
  · intro w hw
    obtain ⟨v, hv, described⟩ := exists_left_of_forall₂ h.data w hw
    exact described.every ((part_every every "data").of_items? v hv)
  · intro r hr
    obtain ⟨item, hitem, named⟩ := exists_left_of_forall₂ h.references r hr
    have records := referenceItems_every (part_every every "reference_manager")
    exact named.every (records item.1 (List.fst_mem_of_mem_zipIdx hitem)) (namings_every hints)
  · intro i hi
    obtain ⟨m, hm, name, described⟩ := exists_left_of_forall₂ h.symbols i hi
    obtain ⟨key, value⟩ := (part_every every "identifiers").of_members? m hm
    exact ⟨name ▸ key, described.every value⟩

end Artifact

/-! ## Artifacts of programs -/

section Encoded

variable (strings : ∀ s : String, Q s)

include strings

theorem ApTracking.every_encode {t : ApTracking} : t.encode.Every P Q ↔ t.Every P := by
  simp only [encode, Document.every_map, List.forall_mem_cons, strings, Document.every_int,
    List.not_mem_nil, false_imp_iff, implies_true, and_true, true_and]
  exact ⟨fun h => ⟨h.1, h.2⟩, fun h => ⟨h.group, h.offset⟩⟩

theorem Hint.every_encode {h : Hint} : h.encode.Every P Q ↔ h.Every P Q := by
  simp only [encode, Document.every_map, List.forall_mem_cons, strings, Document.every_str,
    Document.every_list, List.forall_mem_map, Document.every_int, ApTracking.every_encode strings,
    List.not_mem_nil, false_imp_iff, implies_true, and_true, true_and]
  constructor
  · rintro ⟨code, scopes, tracking, ids⟩
    exact ⟨code, scopes, tracking, ids⟩
  · rintro ⟨code, scopes, tracking, ids⟩
    exact ⟨code, scopes, tracking, ids⟩

theorem every_present {α : Type} {name : String} {o : Option α} {make : α → Document} :
    (∀ m ∈ Identifier.present name (o.map make), Q m.1 ∧ m.2.Every P Q) ↔
      ∀ a ∈ o, (make a).Every P Q := by
  cases o <;> simp [Identifier.present, strings]

theorem Identifier.every_encode {i : Identifier} :
    i.encode.Every P Q ↔ i.Every P Q ∧ ∀ f ∈ i.value, P f.value := by
  simp only [encode, Document.every_map, List.forall_mem_append, every_present strings,
    Document.every_int, Document.every_str]
  constructor
  · rintro ⟨⟨pc, type⟩, value⟩
    exact ⟨⟨pc, type⟩, value⟩
  · rintro ⟨⟨pc, type⟩, value⟩
    exact ⟨⟨pc, type⟩, value⟩

theorem Reference.every_encode {r : Reference} : r.encode.Every P Q ↔ r.Every P Q := by
  obtain ⟨value, tracking, pc, name⟩ := r
  have pcs : ((pc.map Document.int).getD .null).Every P Q ↔ ∀ n ∈ pc, P n := by
    cases pc <;> simp
  have names : (∀ m ∈ nameMember name, Q m.1 ∧ m.2.Every P Q) ↔ ∀ t ∈ name, Q t := by
    cases name <;> simp [nameMember, strings]
  simp only [encode, unnamedMembers, Document.every_map, List.forall_mem_append, names,
    List.forall_mem_cons, strings, ApTracking.every_encode strings, pcs, Document.every_str,
    List.not_mem_nil, false_imp_iff, implies_true, and_true, true_and]
  constructor
  · rintro ⟨⟨tracking, pc, value⟩, name⟩
    exact ⟨value, tracking, pc, name⟩
  · rintro ⟨value, tracking, pc, name⟩
    exact ⟨⟨tracking, pc, value⟩, name⟩

theorem Word.every_encode {w : Word} : w.encode.Every P Q ↔ w.Every P := by
  cases w <;> simp [encode, Word.Every, strings]

/-- The values of symbols are decimal in an artifact, other field elements are not. -/
theorem Program.every_artifact {p : Program} :
    p.artifact.Every P Q ↔
      p.Every P Q ∧ ∀ i ∈ p.identifiers, ∀ f ∈ i.2.value, P f.value := by
  simp only [artifact, hintMembers, ReferenceTable.encode, Document.every_map, List.forall_mem_cons,
    strings, Document.every_str, Document.every_list, List.forall_mem_map,
    Word.every_encode strings, Hint.every_encode strings, Reference.every_encode strings,
    Identifier.every_encode strings, List.not_mem_nil, false_imp_iff, implies_true, and_true,
    true_and]
  constructor
  · rintro ⟨builtins, data, identifiers, hints, references⟩
    exact ⟨⟨builtins, data, hints, references,
      fun i hi => ⟨(identifiers i hi).1, (identifiers i hi).2.1⟩⟩,
      fun i hi => (identifiers i hi).2.2⟩
  · rintro ⟨⟨builtins, data, hints, references, identifiers⟩, values⟩
    exact ⟨builtins, data, fun i hi => ⟨(identifiers i hi).1, (identifiers i hi).2, values i hi⟩,
      hints, references⟩

end Encoded

/-- The values of all symbols have decimal texts. -/
def Program.ShortValues (p : Program) : Prop :=
  ∀ i ∈ p.identifiers, ∀ f ∈ i.2.value, Document.ShortInteger f.value

namespace Artifact

variable {d : Document} {entrypoint : Text} {expected : Option Int} {p : Program}

/-- All integers of a short document are short, but those that were made by reducing a literal. -/
theorem Loads.short_artifact_iff (h : Loads d entrypoint expected p) (short : d.Short) :
    p.artifact.Short ↔ p.ShortValues := by
  have every := h.every (d.short_iff_every.mp short)
  rw [Document.short_iff_every, Program.every_artifact fun _ => trivial]
  exact and_iff_right every

theorem Loads.short_main (h : Loads d entrypoint expected p) (short : d.Short) :
    ∀ n ∈ p.main, Document.ShortInteger n := by
  intro n hn
  obtain ⟨i, found, hpc⟩ := entryPc?_eq_some_iff.mp (h.main.symm.trans hn)
  obtain ⟨before, after, split, -⟩ := List.lookup_eq_some_iff.mp found
  have every := (h.every (d.short_iff_every.mp short)).identifiers (entryName entrypoint, i)
    (by simp [split])
  exact every.2.pc n hpc

end Artifact

end FieldProgram

import FieldProgram.Proofs.Json.Distinct
import FieldProgram.Proofs.Matched
import FieldProgram.Proofs.Program.Every
import Mathlib.Data.List.Nodup

/-!
# Names in programs and agreement of programs

In a program that comes from a document without repeated keys no name stands twice, and its artifact
repeats no key either. Such a program agrees with itself.

* `Artifact.Loads.namesDistinct`, `Artifact.Loads.keysDistinct_artifact`: names and keys differ;
* `Program.agree_self`, `Program.Every.of_agree`: what agreement asks for, and what it hands on.
-/

namespace FieldProgram

open Numeral

/-! ## Mappings -/

namespace Entries

variable {κ α : Type} [BEq κ] [LawfulBEq κ] {same : α → α → Bool} {xs ys : List (κ × α)}

theorem agreeBy_self (nodup : (xs.map Prod.fst).Nodup) (refl : ∀ x ∈ xs, same x.2 x.2 = true) :
    agreeBy same xs xs = true := by
  simp only [agreeBy, beq_self_eq_true, Bool.true_and, List.all_eq_true]
  intro x hx
  rw [lookup_of_mem nodup hx]
  exact refl x hx

theorem exists_of_agreeBy (agree : agreeBy same xs ys = true) :
    ∀ x ∈ xs, ∃ y ∈ ys, x.1 = y.1 ∧ same x.2 y.2 = true := by
  simp only [agreeBy, Bool.and_eq_true, List.all_eq_true] at agree
  intro x hx
  have found := agree.2 x hx
  split at found
  · rename_i y hy
    obtain ⟨before, after, rfl, -⟩ := List.lookup_eq_some_iff.mp hy
    exact ⟨(x.1, y), by simp, rfl, found⟩
  · cases found

end Entries

/-! ## Names -/

/-- No symbol stands twice, and no hint names two references alike. -/
structure Program.NamesDistinct (p : Program) : Prop where
  identifiers : (p.identifiers.map Prod.fst).Nodup
  ids : ∀ entry ∈ p.hints, ∀ h ∈ entry.2, (h.referenceIds.map Prod.fst).Nodup

namespace Document

theorem KeysDistinct.of_lookup {ms : List (Text × Document)} (distinct : KeysDistinct (.map ms))
    {name : Text} {v : Document} (found : ms.lookup name = some v) : v.KeysDistinct := by
  obtain ⟨before, after, rfl, -⟩ := List.lookup_eq_some_iff.mp found
  exact (keysDistinct_map.mp distinct).2 (name, v) (by simp)

theorem KeysDistinct.of_member? {d : Document} (distinct : d.KeysDistinct) {name : Text}
    {v : Document} (found : d.member? name = some v) : v.KeysDistinct := by
  cases d with
  | map ms => exact distinct.of_lookup found
  | _ => cases found

theorem KeysDistinct.of_members? {d : Document} (distinct : d.KeysDistinct) :
    ((d.members?.getD []).map Prod.fst).Nodup ∧ ∀ m ∈ d.members?.getD [], m.2.KeysDistinct := by
  cases d with
  | map ms => exact keysDistinct_map.mp distinct
  | _ => simp [members?]

theorem keysDistinct_named {α : Type} {entries : List (Text × α)} (make : α → Document) :
    KeysDistinct (.map (entries.map fun (name, a) => (name, make a))) ↔
      (entries.map Prod.fst).Nodup ∧ ∀ e ∈ entries, (make e.2).KeysDistinct := by
  rw [keysDistinct_map, List.map_map, List.forall_mem_map]
  rfl

end Document

theorem Hint.DescribedBy.ids_nodup {h : Hint} {d : Document} (described : h.DescribedBy d)
    (distinct : d.KeysDistinct) : (h.referenceIds.map Prod.fst).Nodup := by
  obtain ⟨ms, rfl, -, -, fs, hfs, -, ⟨-, none⟩ | ⟨found, -⟩⟩ := described
  · simp [none]
  · have ids := (distinct.of_lookup hfs).of_lookup found
    rw [Document.keysDistinct_map, List.map_map] at ids
    exact ids.1

namespace Artifact

theorem part_keysDistinct {d : Document} (distinct : d.KeysDistinct) (name : String) :
    (part name d).KeysDistinct := by
  rw [part]
  cases found : d.member? name with
  | none => trivial
  | some v => exact distinct.of_member? found

theorem Loads.namesDistinct {d : Document} {entrypoint : Text} {expected : Option Int}
    {p : Program} (h : Loads d entrypoint expected p) (distinct : d.KeysDistinct) :
    p.NamesDistinct where
  identifiers := by
    have names : (symbolMembers d).map Prod.fst = p.identifiers.map Prod.fst := by
      rw [← List.forall₂_eq_eq_eq, List.forall₂_map_left_iff, List.forall₂_map_right_iff]
      exact h.symbols.imp fun _ _ described => described.1
    rw [← names]
    exact (part_keysDistinct distinct "identifiers").of_members?.1
  ids := by
    intro entry hentry hint hmem
    obtain ⟨-, m, hm, -, -, ds, hds, described⟩ := h.hints.entry entry hentry
    obtain ⟨v, hv, described⟩ := exists_left_of_forall₂ described hint hmem
    have list := (part_keysDistinct distinct "hints").of_members?.2 m hm
    rw [hds, Document.keysDistinct_list] at list
    exact described.ids_nodup (list v hv)

end Artifact

/-! ## Keys of artifacts -/

theorem ApTracking.keysDistinct_encode (t : ApTracking) : t.encode.KeysDistinct := by
  simp [encode]

theorem Hint.keysDistinct_encode {h : Hint} (distinct : (h.referenceIds.map Prod.fst).Nodup) :
    h.encode.KeysDistinct := by
  have ids := (Document.keysDistinct_named .int).mpr ⟨distinct, by simp⟩
  simp [encode, ids, h.apTracking.keysDistinct_encode]

theorem Identifier.keysDistinct_encode (i : Identifier) : i.encode.KeysDistinct := by
  obtain ⟨pc, type, value⟩ := i
  cases pc <;> cases type <;> cases value <;> simp [encode, present]

theorem Reference.keysDistinct_encode (r : Reference) : r.encode.KeysDistinct := by
  obtain ⟨value, tracking, pc, name⟩ := r
  cases pc <;> cases name <;>
    simp [encode, unnamedMembers, nameMember, tracking.keysDistinct_encode]

theorem Word.keysDistinct_encode (w : Word) : w.encode.KeysDistinct := by
  cases w <;> simp [encode]

/-- Program counters that differ have decimal texts that differ. -/
theorem Program.WellFormed.hintKeys_nodup {p : Program} (wf : p.WellFormed) :
    (p.hintMembers.map Prod.fst).Nodup := by
  have keys : p.hintMembers.map Prod.fst =
      (p.hints.map Prod.fst).map fun pc => (shortDecimal pc : Text) := by
    simp [hintMembers]
  rw [keys]
  refine wf.distinct.map_on fun pc hpc pc' hpc' same => ?_
  obtain ⟨entry, hentry, rfl⟩ := List.mem_map.mp hpc
  obtain ⟨entry', hentry', rfl⟩ := List.mem_map.mp hpc'
  have denotes := Text.denotes_shortDecimal (wf.hints entry hentry).1
  rw [same] at denotes
  exact denotes.unique (Text.denotes_shortDecimal (wf.hints entry' hentry').1)

theorem Program.WellFormed.keysDistinct_artifact {p : Program} (wf : p.WellFormed)
    (names : p.NamesDistinct) : p.artifact.KeysDistinct := by
  have hints : (Document.map p.hintMembers).KeysDistinct := by
    refine Document.keysDistinct_map.mpr ⟨wf.hintKeys_nodup, ?_⟩
    simp only [hintMembers, List.forall_mem_map, Document.keysDistinct_list]
    exact fun entry hentry h hh => Hint.keysDistinct_encode (names.ids entry hentry h hh)
  have identifiers := (Document.keysDistinct_named Identifier.encode).mpr
    ⟨names.identifiers, fun i _ => i.2.keysDistinct_encode⟩
  have references : p.references.encode.KeysDistinct := by
    simp [ReferenceTable.encode, Reference.keysDistinct_encode]
  simp [artifact, hints, identifiers, references, Word.keysDistinct_encode]

namespace Artifact

theorem Loads.keysDistinct_artifact {d : Document} {entrypoint : Text} {expected : Option Int}
    {p : Program} (h : Loads d entrypoint expected p) (distinct : d.KeysDistinct) :
    p.artifact.KeysDistinct :=
  h.wellFormed.keysDistinct_artifact (h.namesDistinct distinct)

end Artifact

/-! ## Agreement -/

theorem Hint.agree_self {h : Hint} (distinct : (h.referenceIds.map Prod.fst).Nodup) :
    h.agree h = true := by
  simp [agree, Entries.agreeBy_self distinct]

/-- Hints in two lists agree one by one. -/
theorem Hint.forall₂_agree_iff {as bs : List Hint} :
    (as.length == bs.length && (as.zip bs).all fun (a, b) => a.agree b) = true ↔
      List.Forall₂ (fun a b => a.agree b = true) as bs := by
  rw [List.forall₂_iff_zip, Bool.and_eq_true, beq_iff_eq, List.all_eq_true]
  exact and_congr_right fun _ => Prod.forall

theorem Program.agree_self {p : Program} (pcs : (p.hints.map Prod.fst).Nodup)
    (names : p.NamesDistinct) : p.agree p = true := by
  have hints : ∀ entry ∈ p.hints,
      List.Forall₂ (fun a b : Hint => a.agree b = true) entry.2 entry.2 :=
    fun entry hentry => List.forall₂_same.mpr fun h hh =>
      Hint.agree_self (names.ids entry hentry h hh)
  simp only [agree, beq_self_eq_true, Bool.true_and, Bool.and_true, Bool.and_eq_true]
  exact ⟨Entries.agreeBy_self pcs fun entry hentry =>
      Hint.forall₂_agree_iff.mpr (hints entry hentry),
    Entries.agreeBy_self names.identifiers fun i _ => beq_self_eq_true i.2⟩

variable {P : Int → Prop} {Q : Text → Prop}

theorem Hint.Every.of_agree {a b : Hint} (every : b.Every P Q) (agree : a.agree b = true) :
    a.Every P Q := by
  simp only [Hint.agree, Bool.and_eq_true, beq_iff_eq] at agree
  obtain ⟨⟨⟨code, scopes⟩, tracking⟩, ids⟩ := agree
  refine ⟨code ▸ every.code, scopes ▸ every.scopes, tracking ▸ every.tracking, fun id hid => ?_⟩
  obtain ⟨id', hid', name, index⟩ := Entries.exists_of_agreeBy ids id hid
  obtain ⟨named, indexed⟩ := every.ids id' hid'
  exact ⟨name ▸ named, eq_of_beq index ▸ indexed⟩

theorem Program.Every.of_agree {p q : Program} (every : q.Every P Q) (agree : p.agree q = true) :
    p.Every P Q := by
  simp only [Program.agree, Bool.and_eq_true, beq_iff_eq] at agree
  obtain ⟨⟨⟨⟨⟨⟨builtins, -⟩, data⟩, -⟩, hints⟩, references⟩, identifiers⟩ := agree
  refine ⟨builtins ▸ every.builtins, data ▸ every.data, fun entry hentry h hh => ?_,
    references ▸ every.references, fun i hi => ?_⟩
  · obtain ⟨entry', hentry', -, same⟩ := Entries.exists_of_agreeBy hints entry hentry
    obtain ⟨h', hh', agree⟩ := exists_right_of_forall₂ (Hint.forall₂_agree_iff.mp same) h hh
    exact (every.hints entry' hentry' h' hh').of_agree agree
  · obtain ⟨i', hi', name, same⟩ := Entries.exists_of_agreeBy identifiers i hi
    obtain ⟨named, every⟩ := every.identifiers i' hi'
    exact ⟨name ▸ named, eq_of_beq same ▸ every⟩

end FieldProgram

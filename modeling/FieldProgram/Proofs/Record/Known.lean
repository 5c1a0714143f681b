import FieldProgram.Identifier
import FieldProgram.Proofs.Record.Field
import FieldProgram.Proofs.Related
import FieldProgram.Reference.Basic

/-!
# Documents that are the same in the parts that are read

A relation for each kind of record says that two documents are the same as far as it reads them.
Members under other keys may be added, left out or changed at will. The checks do not see it, but
for keys in records of symbols that are not texts of characters.

* `SameUnder`, `SameItems`, `SameMembers`: relations on documents from relations on their parts;
* `SameHint.check_eq`, `SameReference.check_eq`: the same result or the same faults;
* `SameSymbol.check_eq`: the same, where the keys are of the same kind.
-/

namespace FieldProgram

/-! ## Relations by parts -/

namespace Document

/-- Keys with relations for what stands under them. -/
abbrev Parts : Type := List (String × (Document → Document → Prop))

/-- The members under the keys are related. There may be anything under other keys. -/
def Parts.Relate (parts : Parts) (ms ns : List (Text × Document)) : Prop :=
  ∀ part ∈ parts, Option.Rel part.2 (ms.lookup (part.1 : Text)) (ns.lookup (part.1 : Text))

/-- The documents are one, or mappings related by parts. -/
def SameUnder (parts : Parts) (d e : Document) : Prop :=
  d = e ∨ ∃ ms ns, d = .map ms ∧ e = .map ns ∧ parts.Relate ms ns

/-- The documents are one, or lists with related items. -/
def SameItems (R : Document → Document → Prop) (d e : Document) : Prop :=
  d = e ∨ ∃ xs ys, d = .list xs ∧ e = .list ys ∧ List.Forall₂ R xs ys

/-- The documents are one, or mappings with the same keys and related values. -/
def SameMembers (R : Document → Document → Prop) (d e : Document) : Prop :=
  d = e ∨ ∃ ms ns, d = .map ms ∧ e = .map ns ∧
    List.Forall₂ (fun m n => m.1 = n.1 ∧ R m.2 n.2) ms ns

end Document

open Document

variable {d e : Document} {ms ns : List (Text × Document)}

/-! ## Fields -/

namespace Field

variable {α : Type} {R : Document → Document → Prop} {read : Document → Checked α}

theorem required_congr {name : String}
    (related : Option.Rel R (ms.lookup (name : Text)) (ns.lookup (name : Text)))
    (congr : ∀ {v w}, R v w → read v = read w) :
    required name read (labelled ms) = required name read (labelled ns) := by
  unfold required
  rw [member?_labelled, member?_labelled]
  rcases rel_cases related with ⟨hv, hw⟩ | ⟨v, w, hv, hw, same⟩
  · rw [hv, hw]
  · rw [hv, hw]
    exact congrArg (Checked.under name) (congr same)

theorem optional_congr {name : String} {default : α}
    (related : Option.Rel R (ms.lookup (name : Text)) (ns.lookup (name : Text)))
    (congr : ∀ {v w}, R v w → read v = read w) :
    optional name default read (labelled ms) = optional name default read (labelled ns) := by
  unfold optional
  rw [member?_labelled, member?_labelled]
  rcases rel_cases related with ⟨hv, hw⟩ | ⟨v, w, hv, hw, same⟩
  · rw [hv, hw]
  · rw [hv, hw]
    exact congrArg (Checked.under name) (congr same)

theorem record_congr {parts : Parts} {name : String} {read : List (Label × Document) → Checked α}
    (same : SameUnder parts d e)
    (congr : ∀ {ms ns}, parts.Relate ms ns → read (labelled ms) = read (labelled ns)) :
    record name read d = record name read e := by
  rcases same with rfl | ⟨ms, ns, rfl, rfl, related⟩
  · rfl
  · exact congr related

end Field

/-! ## Records -/

/-- The parts that are read of the state of an allocation pointer. -/
def SameTracking : Document → Document → Prop := SameUnder [("group", Eq), ("offset", Eq)]

/-- The parts that are read of the flow of a hint. -/
def SameFlow : Document → Document → Prop :=
  SameUnder [("ap_tracking", SameTracking), ("reference_ids", Eq)]

/-- The parts that are read of a hint. -/
def SameHint : Document → Document → Prop :=
  SameUnder [("code", Eq), ("accessible_scopes", Eq), ("flow_tracking_data", SameFlow)]

/-- The parts that are read of a symbol. -/
def SameSymbol : Document → Document → Prop := SameUnder [("pc", Eq), ("type", Eq), ("value", Eq)]

/-- The parts that are read of a reference. -/
def SameReference : Document → Document → Prop :=
  SameUnder [("ap_tracking_data", SameTracking), ("pc", Eq), ("value", Eq), ("name", Eq)]

theorem SameTracking.check_eq (same : SameTracking d e) :
    ApTracking.check d = ApTracking.check e := by
  refine Field.record_congr same fun {ms ns} related => ?_
  simp only [Parts.Relate, List.forall_mem_cons] at related
  obtain ⟨group, offset, -⟩ := related
  rw [Field.required_congr group (congrArg _), Field.required_congr offset (congrArg _)]

theorem SameFlow.check_eq (same : SameFlow d e) : Hint.checkFlow d = Hint.checkFlow e := by
  refine Field.record_congr same fun {ms ns} related => ?_
  simp only [Parts.Relate, List.forall_mem_cons] at related
  obtain ⟨tracking, ids, -⟩ := related
  rw [Field.required_congr tracking SameTracking.check_eq, Field.optional_congr ids (congrArg _)]

theorem SameHint.check_eq (same : SameHint d e) : Hint.check d = Hint.check e := by
  refine Field.record_congr same fun {ms ns} related => ?_
  simp only [Parts.Relate, List.forall_mem_cons] at related
  obtain ⟨code, scopes, flow, -⟩ := related
  rw [Field.required_congr code (congrArg _), Field.optional_congr scopes (congrArg _),
    Field.required_congr flow SameFlow.check_eq]

theorem SameReference.check_eq (same : SameReference d e) :
    Reference.check d = Reference.check e := by
  refine Field.record_congr same fun {ms ns} related => ?_
  simp only [Parts.Relate, List.forall_mem_cons] at related
  obtain ⟨tracking, pc, value, name, -⟩ := related
  rw [Field.required_congr tracking SameTracking.check_eq, Field.optional_congr pc (congrArg _),
    Field.required_congr value (congrArg _), Field.optional_congr name (congrArg _)]

/-! ## Symbols -/

/-- All keys of the document are texts of characters. -/
def Document.HasCharacterKeys (d : Document) : Prop := ∀ m ∈ d.members?.getD [], m.1.chars? ≠ none

theorem areKeysCharacters_iff :
    Field.areKeysCharacters (labelled ms) = true ↔ (Document.map ms).HasCharacterKeys := by
  simp [Field.areKeysCharacters, labelled, Document.HasCharacterKeys, members?,
    Option.isSome_iff_ne_none]

theorem SameSymbol.check_eq (same : SameSymbol d e)
    (keys : d.HasCharacterKeys ↔ e.HasCharacterKeys) :
    IdentifierRecord.check d = IdentifierRecord.check e := by
  rcases same with rfl | ⟨ms, ns, rfl, rfl, related⟩
  · rfl
  · simp only [Parts.Relate, List.forall_mem_cons] at related
    obtain ⟨pc, type, value, -⟩ := related
    have kept : Field.areKeysCharacters (labelled ms) = Field.areKeysCharacters (labelled ns) := by
      rw [Bool.eq_iff_iff, areKeysCharacters_iff, areKeysCharacters_iff]
      exact keys
    simp only [IdentifierRecord.check, Field.openRecord, Field.record, layer, outer]
    rw [kept, Field.optional_congr pc (congrArg _), Field.optional_congr type (congrArg _),
      Field.optional_congr value (congrArg _)]

end FieldProgram

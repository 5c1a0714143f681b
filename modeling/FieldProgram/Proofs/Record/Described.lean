import FieldProgram.Identifier
import FieldProgram.Proofs.Record.Field
import FieldProgram.Reference.Basic

/-!
# Which records describe which values

For each kind of record, what its members must be for it to describe a given value, stated on the
members alone. The checks find exactly these values.

* `ApTracking.check_eq_valid`, `Hint.check_eq_valid`, `IdentifierRecord.check_eq_valid`,
  `Reference.check_eq_valid`: a check has a result exactly when the record describes it.
-/

namespace FieldProgram

/-- A member that may be left out or be null stands for a value, or for none. -/
def Holds {α : Type} (name : Text) (ms : List (Text × Document)) (means : Document → α → Prop) :
    Option α → Prop
  | none => ms.lookup name = none ∨ ms.lookup name = some .null
  | some a => ∃ d, ms.lookup name = some d ∧ means d a

/-- An integer from zero on. -/
def IsNatural (d : Document) (n : Int) : Prop := d = .int n ∧ 0 ≤ n

theorem Field.optional_nullable_eq_valid {α : Type} {name : String} {read : Document → Checked α}
    (not_null : ∀ a, read .null ≠ .valid a) {ms : List (Text × Document)} {o : Option α} :
    optional name none (nullable read) (Document.labelled ms) = .valid o ↔
      Holds name ms (fun d a => read d = .valid a) o := by
  rw [optional_eq_valid]
  cases hv : ms.lookup (name : Text) with
  | none => cases o <;> simp [Holds, hv]
  | some v =>
    simp only [reduceCtorEq, false_and, false_or, Option.some.injEq, exists_eq_left',
      nullable_eq_valid not_null]
    cases o with
    | none => simp [Holds, hv]
    | some a =>
      simp only [Holds, hv, Option.some.injEq, exists_eq_left', reduceCtorEq, and_false, false_or]
      constructor
      · rintro ⟨b, hb, rfl⟩
        exact hb
      · exact fun ha => ⟨a, ha, rfl⟩

/-! ## Records -/

/-- The record describes the state of the allocation pointer. -/
def ApTracking.DescribedBy (t : ApTracking) (d : Document) : Prop :=
  ∃ ms, d = .map ms ∧
    (∃ v, ms.lookup ("group" : Text) = some v ∧ IsNatural v t.group) ∧
    ∃ v, ms.lookup ("offset" : Text) = some v ∧ IsNatural v t.offset

/-- The names of references are in the record, where it has them, with indices from zero on. -/
def Hint.IdsDescribedBy (ids : List (Text × Int)) (fs : List (Text × Document)) : Prop :=
  fs.lookup ("reference_ids" : Text) = none ∧ ids = [] ∨
    fs.lookup ("reference_ids" : Text) =
      some (.map (ids.map fun (name, n) => (name, .int n))) ∧ ∀ id ∈ ids, 0 ≤ id.2

/-- The record describes the hint. -/
def Hint.DescribedBy (h : Hint) (d : Document) : Prop :=
  ∃ ms, d = .map ms ∧
    ms.lookup ("code" : Text) = some (.str h.code) ∧
    (ms.lookup ("accessible_scopes" : Text) = none ∧ h.scopes = [] ∨
      ms.lookup ("accessible_scopes" : Text) = some (.list (h.scopes.map .str))) ∧
    ∃ fs, ms.lookup ("flow_tracking_data" : Text) = some (.map fs) ∧
      (∃ v, fs.lookup ("ap_tracking" : Text) = some v ∧ h.apTracking.DescribedBy v) ∧
      Hint.IdsDescribedBy h.referenceIds fs

/-- The record describes the symbol. Members that it keeps need keys of characters. -/
def IdentifierRecord.DescribedBy (r : IdentifierRecord) (d : Document) : Prop :=
  ∃ ms, d = .map ms ∧ (∀ m ∈ ms, m.1.chars? ≠ none) ∧
    Holds "pc" ms IsNatural r.pc ∧ Holds "type" ms (fun v t => v = .str t) r.type ∧
    Holds "value" ms (fun v n => v.integer = .ok n) r.value

/-- The record describes the reference. -/
def Reference.DescribedBy (r : Reference) (d : Document) : Prop :=
  ∃ ms, d = .map ms ∧
    (∃ v, ms.lookup ("ap_tracking_data" : Text) = some v ∧ r.apTracking.DescribedBy v) ∧
    Holds "pc" ms IsNatural r.pc ∧ ms.lookup ("value" : Text) = some (.str r.value) ∧
    Holds "name" ms (fun v t => v = .str t) r.name

/-! ## Checks -/

theorem ApTracking.check_eq_valid {d : Document} {t : ApTracking} :
    check d = .valid t ↔ t.DescribedBy d := by
  simp only [check, DescribedBy, Field.record_eq_valid, Checked.map_eq_valid,
    Checked.both_eq_valid, Field.required_eq_valid, Field.natural_eq_valid, IsNatural]
  refine exists_congr fun ms => and_congr_right fun _ => ?_
  constructor
  · rintro ⟨⟨g, o⟩, h, rfl⟩
    exact h
  · exact fun h => ⟨(t.group, t.offset), h, rfl⟩

theorem Hint.firstNegative?_eq_none_iff {ids : List (Text × Int)} :
    (firstNegative? ids).map RecordBreach.negativeReference = none ↔ ∀ id ∈ ids, 0 ≤ id.2 := by
  simp [firstNegative?]

theorem Hint.checkReferenceIds_eq_valid {d : Document} {ids : List (Text × Int)} :
    checkReferenceIds d = .valid ids ↔
      d = .map (ids.map fun (name, n) => (name, .int n)) ∧ ∀ id ∈ ids, 0 ≤ id.2 := by
  rw [checkReferenceIds, Checked.ensure_eq_valid, Field.mapOf_integer_eq_valid,
    firstNegative?_eq_none_iff]

theorem Hint.checkFlow_eq_valid {d : Document} {p : ApTracking × List (Text × Int)} :
    checkFlow d = .valid p ↔ ∃ fs, d = .map fs ∧
      (∃ v, fs.lookup ("ap_tracking" : Text) = some v ∧ p.1.DescribedBy v) ∧
      IdsDescribedBy p.2 fs := by
  simp only [checkFlow, Field.record_eq_valid, Checked.both_eq_valid, Field.required_eq_valid,
    Field.optional_eq_valid, checkReferenceIds_eq_valid, ApTracking.check_eq_valid]
  refine exists_congr fun fs => and_congr_right fun _ => and_congr_right fun _ => ?_
  unfold IdsDescribedBy
  refine or_congr_right ?_
  constructor
  · rintro ⟨v, hv, rfl, nonneg⟩
    exact ⟨hv, nonneg⟩
  · rintro ⟨hv, nonneg⟩
    exact ⟨_, hv, rfl, nonneg⟩

theorem Hint.check_eq_valid {d : Document} {h : Hint} :
    check d = .valid h ↔ h.DescribedBy d := by
  simp only [check, DescribedBy, Field.record_eq_valid, Checked.map_eq_valid,
    Checked.both_eq_valid, Field.required_eq_valid, Field.optional_eq_valid,
    Field.string_eq_valid, Field.listOf_string_eq_valid, checkFlow_eq_valid]
  refine exists_congr fun ms => and_congr_right fun _ => ?_
  constructor
  · rintro ⟨⟨code, scopes, tracking, ids⟩, ⟨⟨_, hcode, rfl⟩, hscopes, _, hflow, fs, rfl, parts⟩,
      rfl⟩
    refine ⟨hcode, ?_, fs, hflow, parts⟩
    rcases hscopes with absent | ⟨_, found, rfl⟩
    · exact .inl absent
    · exact .inr found
  · rintro ⟨hcode, hscopes, fs, hflow, parts⟩
    refine ⟨(h.code, h.scopes, h.apTracking, h.referenceIds),
      ⟨⟨_, hcode, rfl⟩, ?_, _, hflow, fs, rfl, parts⟩, rfl⟩
    rcases hscopes with absent | found
    · exact .inl absent
    · exact .inr ⟨_, found, rfl⟩

theorem IdentifierRecord.check_eq_valid {d : Document} {r : IdentifierRecord} :
    check d = .valid r ↔ r.DescribedBy d := by
  simp only [check, DescribedBy, Field.openRecord_eq_valid, Checked.map_eq_valid,
    Checked.both_eq_valid, Field.optional_nullable_eq_valid Field.natural_null,
    Field.optional_nullable_eq_valid Field.string_null,
    Field.optional_nullable_eq_valid Field.literal_null, Field.natural_eq_valid,
    Field.string_eq_valid, Field.literal_eq_valid]
  refine exists_congr fun ms => and_congr_right fun _ => and_congr_right fun _ => ?_
  constructor
  · rintro ⟨⟨pc, type, value⟩, h, rfl⟩
    exact h
  · exact fun h => ⟨(r.pc, r.type, r.value), h, rfl⟩

theorem Reference.check_eq_valid {d : Document} {r : Reference} :
    check d = .valid r ↔ r.DescribedBy d := by
  simp only [check, DescribedBy, Field.record_eq_valid, Checked.map_eq_valid,
    Checked.both_eq_valid, Field.required_eq_valid, ApTracking.check_eq_valid,
    Field.optional_nullable_eq_valid Field.natural_null,
    Field.optional_nullable_eq_valid Field.string_null, Field.natural_eq_valid,
    Field.string_eq_valid]
  refine exists_congr fun ms => and_congr_right fun _ => ?_
  constructor
  · rintro ⟨⟨tracking, pc, value, name⟩, ⟨htracking, hpc, ⟨_, hvalue, rfl⟩, hname⟩, rfl⟩
    exact ⟨htracking, hpc, hvalue, hname⟩
  · rintro ⟨htracking, hpc, hvalue, hname⟩
    exact ⟨(r.apTracking, r.pc, r.value, r.name),
      ⟨htracking, hpc, ⟨_, hvalue, rfl⟩, hname⟩, rfl⟩

end FieldProgram

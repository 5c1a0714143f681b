import FieldProgram.Record.Field
import Mathlib.Data.List.Forall2

/-!
# What the readers of records accept

One equivalence for each reader and each way of combining readers: which values have a result, and
which result it is.

* `Field.nonEmptyString_eq_valid_iff`, `Field.nullable_eq_valid_iff`,
  `Field.optional_eq_valid_iff`: values of any kind;
* `Field.natural_eq_valid`, `Field.string_eq_valid`, `Field.literal_eq_valid`: plain documents;
* `Field.listOf_string_eq_valid`, `Field.mapOf_integer_eq_valid`: documents with parts;
* `Field.required_eq_valid`, `Field.optional_eq_valid`: members.
-/

namespace FieldProgram

/-! ## Combined checks -/

namespace Checked

variable {α β : Type}

@[simp] theorem fault_ne_valid {breach : RecordBreach} {a : α} :
    (fault breach : Checked α) ≠ .valid a := by
  simp [fault]

@[simp] theorem map_eq_valid {g : α → β} {c : Checked α} {b : β} :
    c.map g = .valid b ↔ ∃ a, c = .valid a ∧ g a = b := by
  cases c <;> simp [map]

@[simp] theorem both_eq_valid {c : Checked α} {c' : Checked β} {p : α × β} :
    c.both c' = .valid p ↔ c = .valid p.1 ∧ c' = .valid p.2 := by
  cases c <;> cases c' <;> simp [both, Prod.ext_iff]

@[simp] theorem under_eq_valid {name : String} {c : Checked α} {a : α} :
    c.under name = .valid a ↔ c = .valid a := by
  cases c <;> simp [under]

@[simp] theorem ensure_eq_valid {c : Checked α} {check : α → Option RecordBreach} {a : α} :
    c.ensure check = .valid a ↔ c = .valid a ∧ check a = none := by
  cases c with
  | faulty f fs => simp [ensure]
  | valid b =>
    simp only [ensure]
    cases h : check b with
    | none =>
      constructor
      · rintro ⟨⟩
        exact ⟨rfl, h⟩
      · exact And.left
    | some breach =>
      simp only [fault_ne_valid, valid.injEq, false_iff, not_and]
      rintro rfl
      simp [h]

theorem all_eq_valid {cs : List (Checked α)} {as : List α} :
    all cs = .valid as ↔ cs = as.map .valid := by
  induction cs generalizing as with
  | nil => cases as <;> simp [all]
  | cons c cs ih =>
    cases as with
    | nil => simp [all]
    | cons a as => simp [all, ih]

end Checked

/-! ## Values of any kind -/

namespace Field

section Layered

variable {ν α : Type}

theorem optional_eq_valid_iff {name : String} {default : α} {read : ν → Checked α}
    {ms : List (Label × ν)} {a : α} :
    optional name default read ms = .valid a ↔
      Layer.member? name ms = none ∧ a = default ∨
        ∃ v, Layer.member? name ms = some v ∧ read v = .valid a := by
  rw [optional]
  cases Layer.member? (name : Text) ms <;> simp [eq_comm]

variable [Layered ν]

theorem literal_eq_valid_iff {v : ν} {n : Int} :
    literal v = .valid n ↔ (layer v).integer = .ok n := by
  unfold literal
  cases (layer v).integer <;> simp

theorem string_eq_valid_iff {v : ν} {t : Text} : string v = .valid t ↔ layer v = .str t := by
  unfold string
  split <;> simp_all

theorem nonEmptyString_eq_valid_iff {v : ν} {t : Text} :
    nonEmptyString v = .valid t ↔
      layer v = .str t ∧ t.chars? ≠ none ∧ t.isEmpty = false := by
  rw [nonEmptyString, Checked.ensure_eq_valid, string_eq_valid_iff]
  refine and_congr_right fun _ => ?_
  cases t.chars? <;> cases t.isEmpty <;> simp

/-- A truth value is read as it stands. -/
theorem truth_eq_valid_iff {v : ν} {b b' : Bool} (h : layer v = .bool b) :
    truth v = .valid b' ↔ layer v = .bool b' := by
  rw [truth, h]
  simp

/-- A value may be null where its reader does not take null. -/
theorem nullable_eq_valid_iff {read : ν → Checked α} {v : ν} {o : Option α}
    (not_null : layer v = .null → ∀ a, read v ≠ .valid a) :
    nullable read v = .valid o ↔
      layer v = .null ∧ o = none ∨ ∃ a, read v = .valid a ∧ o = some a := by
  unfold nullable
  split
  · rename_i null
    simp [null, not_null null, eq_comm (a := o)]
  · rename_i other
    have full : layer v ≠ .null := fun null => other null
    simp [full, eq_comm (a := o)]

end Layered

end Field

/-! ## Values of documents -/

namespace Field

variable {α : Type}

theorem integer_eq_valid {d : Document} {n : Int} : integer d = .valid n ↔ d = .int n := by
  cases d <;> simp [integer, layer, Document.outer]

theorem natural_eq_valid {d : Document} {n : Int} :
    natural d = .valid n ↔ d = .int n ∧ 0 ≤ n := by
  simp [natural, integer_eq_valid]

theorem string_eq_valid {d : Document} {t : Text} : string d = .valid t ↔ d = .str t := by
  cases d <;> simp [string, layer, Document.outer]

theorem literal_eq_valid {d : Document} {n : Int} :
    literal d = .valid n ↔ d.integer = .ok n := literal_eq_valid_iff

theorem natural_null (n : Int) : natural Document.null ≠ .valid n := by
  simp [natural_eq_valid]

theorem string_null (t : Text) : string Document.null ≠ .valid t := by
  simp [string_eq_valid]

theorem literal_null (n : Int) : literal Document.null ≠ .valid n := by
  simp [literal_eq_valid, Document.integer, Document.outer, Layer.integer]

theorem nullable_eq_valid {read : Document → Checked α} {d : Document} {o : Option α}
    (not_null : ∀ a, read .null ≠ .valid a) :
    nullable read d = .valid o ↔ d = .null ∧ o = none ∨ ∃ a, read d = .valid a ∧ o = some a := by
  have null : layer d = .null ↔ d = .null := by
    cases d <;> simp [layer, Document.outer]
  rw [nullable_eq_valid_iff fun h => null.mp h ▸ not_null, null]

theorem zipIdx_map_eq_valid {read : Document → Checked α} {xs : List Document} {as : List α}
    (start : Nat) :
    ((xs.zipIdx start).map fun (x, n) => (read x).under (toString n)) = as.map .valid ↔
      List.Forall₂ (fun x a => read x = .valid a) xs as := by
  induction xs generalizing as start with
  | nil => cases as <;> simp
  | cons x xs ih =>
    cases as with
    | nil => simp
    | cons a as =>
      simp only [List.zipIdx_cons, List.map_cons, List.cons.injEq, ih, List.forall₂_cons,
        Checked.under_eq_valid]

theorem listOf_eq_valid {read : Document → Checked α} {d : Document} {as : List α} :
    listOf read d = .valid as ↔
      ∃ xs, d = .list xs ∧ List.Forall₂ (fun x a => read x = .valid a) xs as := by
  cases d with
  | list xs =>
    simp only [listOf, layer, Document.outer, Checked.all_eq_valid, Document.list.injEq,
      exists_eq_left']
    exact zipIdx_map_eq_valid 0
  | _ => simp [listOf, layer, Document.outer]

theorem mapOf_eq_valid {read : Document → Checked α} {d : Document} {as : List (Text × α)} :
    mapOf read d = .valid as ↔
      ∃ ms, d = .map ms ∧ List.Forall₂ (fun m a => m.1 = a.1 ∧ read m.2 = .valid a.2) ms as := by
  cases d with
  | map ms =>
    simp only [mapOf, Checked.all_eq_valid, Document.map.injEq, exists_eq_left']
    induction ms generalizing as with
    | nil => cases as <;> simp
    | cons m ms ih =>
      cases as with
      | nil => simp
      | cons a as =>
        simp only [List.map_cons, List.cons.injEq, ih, List.forall₂_cons]
        refine and_congr_left fun _ => ?_
        simp only [Checked.map_eq_valid, Checked.under_eq_valid]
        constructor
        · rintro ⟨b, hb, rfl⟩
          exact ⟨rfl, hb⟩
        · rintro ⟨key, hb⟩
          exact ⟨a.2, hb, by rw [key]⟩
  | _ => simp [mapOf]

theorem listOf_string_eq_valid {d : Document} {ts : List Text} :
    listOf string d = .valid ts ↔ d = .list (ts.map .str) := by
  have items : ∀ xs : List Document,
      List.Forall₂ (fun x t => string x = .valid t) xs ts ↔ xs = ts.map .str := by
    intro xs
    rw [← List.forall₂_eq_eq_eq, List.forall₂_map_right_iff]
    simp only [string_eq_valid]
  simp [listOf_eq_valid, items]

theorem mapOf_integer_eq_valid {d : Document} {ids : List (Text × Int)} :
    mapOf integer d = .valid ids ↔ d = .map (ids.map fun (name, n) => (name, .int n)) := by
  have members : ∀ ms : List (Text × Document),
      List.Forall₂ (fun m a => m.1 = a.1 ∧ integer m.2 = .valid a.2) ms ids ↔
        ms = ids.map fun (name, n) => (name, .int n) := by
    intro ms
    rw [← List.forall₂_eq_eq_eq, List.forall₂_map_right_iff]
    simp only [integer_eq_valid, Prod.ext_iff]
  simp [mapOf_eq_valid, members]

/-! ## Members -/

theorem record_eq_valid {name : String} {read : List (Label × Document) → Checked α}
    {d : Document} {a : α} :
    record name read d = .valid a ↔ ∃ ms, d = .map ms ∧ read (Document.labelled ms) = .valid a := by
  cases d <;> simp [record, layer, Document.outer]

theorem required_eq_valid {name : String} {read : Document → Checked α}
    {ms : List (Text × Document)} {a : α} :
    required name read (Document.labelled ms) = .valid a ↔
      ∃ v, ms.lookup (name : Text) = some v ∧ read v = .valid a := by
  rw [required, Document.member?_labelled]
  cases ms.lookup (name : Text) <;> simp

theorem optional_eq_valid {name : String} {default : α} {read : Document → Checked α}
    {ms : List (Text × Document)} {a : α} :
    optional name default read (Document.labelled ms) = .valid a ↔
      ms.lookup (name : Text) = none ∧ a = default ∨
        ∃ v, ms.lookup (name : Text) = some v ∧ read v = .valid a := by
  rw [optional_eq_valid_iff, Document.member?_labelled]

theorem openRecord_eq_valid {name : String} {read : List (Label × Document) → Checked α}
    {d : Document} {a : α} :
    openRecord name read d = .valid a ↔ ∃ ms, d = .map ms ∧
      (∀ m ∈ ms, m.1.chars? ≠ none) ∧ read (Document.labelled ms) = .valid a := by
  have keys : ∀ ms : List (Text × Document), areKeysCharacters (Document.labelled ms) = true ↔
      ∀ m ∈ ms, m.1.chars? ≠ none := by
    intro ms
    simp [areKeysCharacters, Document.labelled, Option.isSome_iff_ne_none]
  rw [openRecord, record_eq_valid]
  refine exists_congr fun ms => and_congr_right fun _ => ?_
  rw [← keys]
  by_cases h : areKeysCharacters (Document.labelled ms) = true
  · rw [if_pos h]
    exact (and_iff_right h).symm
  · rw [if_neg h]
    simp [h]

end Field

end FieldProgram

import FieldProgram.Schema.Basic

/-!
# Values without violations

`Schema.violations_eq_nil_iff` takes a schema apart: a value does not depart from it exactly when
it departs from none of its requirements.

* `typed_violations_eq_nil_iff`, `nonEmptyText_violations_eq_nil_iff`,
  `chosenText_violations_eq_nil_iff`: schemas of values without parts;
* `closedMapping_violations_eq_nil_iff`: schemas of mappings that have no other members;
* `violations_below`, `typedItems_violations`: where violations are.
-/

namespace FieldProgram

namespace SchemaType

variable {ν : Type} {l : Layer ν}

theorem admits_string_iff : string.admits l = true ↔ ∃ t, l = .str t := by
  cases l <;> simp [admits]

theorem admits_boolean_iff : boolean.admits l = true ↔ ∃ b, l = .bool b := by
  cases l <;> simp [admits]

theorem admits_object_iff : object.admits l = true ↔ ∃ ms, l = .map ms := by
  cases l <;> simp [admits]

end SchemaType

namespace Schema

theorem inOrder_eq_nil_iff {ν : Type} {vs : List (Violation ν)} : inOrder vs = [] ↔ vs = [] := by
  rw [← List.length_eq_zero_iff, inOrder, List.length_mergeSort, List.length_eq_zero_iff]

variable {ν : Type} [Layered ν]

/-! ## Requirements that ask for nothing -/

@[simp] theorem requiredBreaches_nil (v : ν) : requiredBreaches [] v = [] := by
  unfold requiredBreaches
  split <;> rfl

@[simp] theorem memberViolations_nil (path : List String) (v : ν) :
    memberViolations path v [] = [] := by
  rw [memberViolations]

@[simp] theorem itemViolations_none (path : List String) (v : ν) :
    itemViolations path v none = [] := by
  rw [itemViolations]

@[simp] theorem emptyBreaches_false (v : ν) : emptyBreaches false v = [] := by
  unfold emptyBreaches
  split <;> rfl

@[simp] theorem choiceBreaches_none (v : ν) : choiceBreaches none v = [] := rfl

@[simp] theorem closedBreaches_false (names : List String) (v : ν) :
    closedBreaches false names v = [] := by
  unfold closedBreaches
  split <;> rfl

/-! ## Requirements one by one -/

theorem typeBreaches_eq_nil_iff {types : List SchemaType} {v : ν} :
    typeBreaches types v = [] ↔ types = [] ∨ ∃ t ∈ types, t.admits (layer v) = true := by
  unfold typeBreaches
  by_cases any : types = []
  · simp [any]
  · simp [any]

theorem emptyBreaches_eq_nil_iff {v : ν} {t : Text} (text : layer v = .str t) :
    emptyBreaches true v = [] ↔ t.isEmpty = false := by
  rw [emptyBreaches, text]
  cases h : t.isEmpty <;> simp [h]

theorem choiceBreaches_eq_nil_iff {v : ν} {t : Text} (text : layer v = .str t)
    {choices : List String} :
    choiceBreaches (some choices) v = [] ↔ ∃ c ∈ choices, t = (c : Text) := by
  simp only [choiceBreaches, text]
  split
  · rename_i chosen
    simpa using chosen
  · rename_i other
    refine iff_of_false (by simp) ?_
    simpa using other

theorem closedBreaches_eq_nil_iff {v : ν} {ms : List (Label × ν)} (mapping : layer v = .map ms)
    {names : List String} :
    closedBreaches true names v = [] ↔ ∀ m ∈ ms, ∃ n ∈ names, m.1.isNamed n = true := by
  simp only [closedBreaches, mapping]
  split
  · rename_i extra
    refine iff_of_false (by simp) ?_
    simpa [-List.isEmpty_iff] using extra
  · rename_i none
    simpa using none

/-- The violations by the member under a name, if there is one. -/
def violationsUnder (path : List String) (v : ν) (e : String × Schema) : List (Violation ν) :=
  match memberOf? e.1 v with
  | some m => violations (path ++ [e.1]) m e.2
  | none => []

theorem violationsUnder_eq_nil_iff {path : List String} {v : ν} {e : String × Schema} :
    violationsUnder path v e = [] ↔
      ∀ w, memberOf? e.1 v = some w → e.2.violations (path ++ [e.1]) w = [] := by
  unfold violationsUnder
  cases memberOf? e.1 v <;> simp

theorem memberViolations_eq_flatMap (path : List String) (v : ν)
    (members : List (String × Schema)) :
    memberViolations path v members = members.flatMap (violationsUnder path v) := by
  induction members with
  | nil => simp
  | cons e members ih =>
    rw [memberViolations, List.flatMap_cons, ih]
    rfl

theorem memberViolations_eq_nil_iff {path : List String} {v : ν}
    {members : List (String × Schema)} :
    memberViolations path v members = [] ↔
      ∀ m ∈ members, ∀ w, memberOf? m.1 v = some w → m.2.violations (path ++ [m.1]) w = [] := by
  rw [memberViolations_eq_flatMap, List.flatMap_eq_nil_iff]
  exact forall₂_congr fun m _ => violationsUnder_eq_nil_iff

theorem itemViolations_eq_nil_iff {path : List String} {v : ν} {s : Schema} :
    itemViolations path v (some s) = [] ↔
      ∀ p ∈ (itemsOf v).zipIdx, s.violations (path ++ [toString p.2]) p.1 = [] := by
  simp only [itemViolations, List.flatten_eq_nil_iff, List.mem_map]
  constructor
  · intro h p hp
    exact h _ ⟨p, hp, rfl⟩
  · rintro h _ ⟨p, hp, rfl⟩
    exact h p hp

/-! ## Schemas -/

theorem violations_eq_nil_iff {path : List String} {v : ν} {s : Schema} :
    s.violations path v = [] ↔
      (typeBreaches s.types v = [] ∧ requiredBreaches s.required v = []) ∧
      memberViolations path v s.members = [] ∧ itemViolations path v s.items = [] ∧
      emptyBreaches s.nonEmpty v = [] ∧ choiceBreaches s.choices v = [] ∧
      closedBreaches s.closed (s.members.map Prod.fst) v = [] := by
  obtain ⟨types, required, members, items, nonEmpty, choices, closed⟩ := s
  simp only [violations, List.append_eq_nil_iff, List.map_eq_nil_iff]
  constructor
  · rintro ⟨⟨⟨own, hmembers⟩, hitems⟩, ⟨hempty, hchoice⟩, hclosed⟩
    exact ⟨own, hmembers, hitems, hempty, hchoice, hclosed⟩
  · rintro ⟨own, hmembers, hitems, hempty, hchoice, hclosed⟩
    exact ⟨⟨⟨own, hmembers⟩, hitems⟩, ⟨hempty, hchoice⟩, hclosed⟩

/-- A schema that asks for types only. -/
theorem typed_violations_eq_nil_iff {path : List String} {v : ν} {types : List SchemaType} :
    violations path v { types } = [] ↔ types = [] ∨ ∃ t ∈ types, t.admits (layer v) = true := by
  rw [violations_eq_nil_iff, typeBreaches_eq_nil_iff]
  simp

/-- A schema that asks for a text with something in it. -/
theorem nonEmptyText_violations_eq_nil_iff {path : List String} {v : ν} :
    violations path v { types := [.string], nonEmpty := true } = [] ↔
      ∃ t, layer v = .str t ∧ t.isEmpty = false := by
  rw [violations_eq_nil_iff, typeBreaches_eq_nil_iff]
  simp only [List.cons_ne_nil, false_or, List.mem_singleton, exists_eq_left,
    SchemaType.admits_string_iff]
  constructor
  · rintro ⟨⟨⟨t, text⟩, -⟩, -, -, full, -⟩
    exact ⟨t, text, (emptyBreaches_eq_nil_iff text).mp full⟩
  · rintro ⟨t, text, full⟩
    exact ⟨⟨⟨t, text⟩, by simp⟩, by simp, by simp, (emptyBreaches_eq_nil_iff text).mpr full,
      by simp, by simp⟩

/-- A schema that asks for one of some texts. -/
theorem chosenText_violations_eq_nil_iff {path : List String} {v : ν} {choices : List String} :
    violations path v { types := [.string], choices := some choices } = [] ↔
      ∃ c ∈ choices, layer v = .str c := by
  rw [violations_eq_nil_iff, typeBreaches_eq_nil_iff]
  simp only [List.cons_ne_nil, false_or, List.mem_singleton, exists_eq_left,
    SchemaType.admits_string_iff]
  constructor
  · rintro ⟨⟨⟨t, text⟩, -⟩, -, -, -, chosen, -⟩
    obtain ⟨c, hc, rfl⟩ := (choiceBreaches_eq_nil_iff text).mp chosen
    exact ⟨c, hc, text⟩
  · rintro ⟨c, hc, text⟩
    exact ⟨⟨⟨c, text⟩, by simp⟩, by simp, by simp, by simp,
      (choiceBreaches_eq_nil_iff text).mpr ⟨c, hc, rfl⟩, by simp⟩

theorem memberOf?_of_layer {v : ν} {ms : List (Label × ν)} (mapping : layer v = .map ms)
    (name : String) : memberOf? name v = Layer.member? name ms := by
  rw [memberOf?, mapping]

/-- A mapping breaks its schema by its members, or by those that there should not be. -/
theorem closedMapping_violations {path : List String} {v : ν} {ms : List (Label × ν)}
    (mapping : layer v = .map ms) (members : List (String × Schema)) :
    violations path v { types := [.object], members, closed := true } =
      members.flatMap (violationsUnder path v) ++
        (closedBreaches true (members.map Prod.fst) v).map (⟨path, ·⟩) := by
  have isMapping : SchemaType.object.admits (layer v) = true :=
    SchemaType.admits_object_iff.mpr ⟨ms, mapping⟩
  have typed : typeBreaches [.object] v = [] :=
    typeBreaches_eq_nil_iff.mpr (.inr ⟨.object, List.mem_singleton_self _, isMapping⟩)
  simp [violations, typed, memberViolations_eq_flatMap]

/-- A schema that asks for a mapping with certain members and no others. -/
theorem closedMapping_violations_eq_nil_iff {path : List String} {v : ν}
    {members : List (String × Schema)} :
    violations path v { types := [.object], members, closed := true } = [] ↔
      ∃ ms, layer v = .map ms ∧
        (∀ m ∈ members, ∀ w, Layer.member? m.1 ms = some w →
          m.2.violations (path ++ [m.1]) w = []) ∧
        ∀ m ∈ ms, ∃ s ∈ members, m.1.isNamed s.1 = true := by
  rw [violations_eq_nil_iff, typeBreaches_eq_nil_iff, memberViolations_eq_nil_iff]
  simp only [List.cons_ne_nil, false_or, List.mem_singleton, exists_eq_left,
    SchemaType.admits_object_iff]
  constructor
  · rintro ⟨⟨⟨ms, mapping⟩, -⟩, each, -, -, -, closed⟩
    rw [closedBreaches_eq_nil_iff mapping] at closed
    simp only [memberOf?_of_layer mapping] at each
    exact ⟨ms, mapping, each, by simpa using closed⟩
  · rintro ⟨ms, mapping, each, closed⟩
    refine ⟨⟨⟨ms, mapping⟩, by simp⟩, ?_, by simp, by simp, by simp, ?_⟩
    · simpa only [memberOf?_of_layer mapping] using each
    · rw [closedBreaches_eq_nil_iff mapping]
      simpa using closed

/-! ## Places of violations -/

mutual

/-- Whatever breaks a schema does so at its place or below. -/
theorem violations_below (path : List String) (v : ν) :
    (s : Schema) → ∀ x ∈ violations path v s, path <+: x.path
  | ⟨types, required, members, items, nonEmpty, choices, closed⟩ => by
    intro x hx
    simp only [violations, List.mem_append, List.mem_map] at hx
    rcases hx with ((⟨b, -, rfl⟩ | hx) | hx) | ⟨b, -, rfl⟩
    · exact List.prefix_rfl
    · exact memberViolations_below path v members x hx
    · exact itemViolations_below path v items x hx
    · exact List.prefix_rfl

theorem memberViolations_below (path : List String) (v : ν) :
    (members : List (String × Schema)) → ∀ x ∈ memberViolations path v members, path <+: x.path
  | [] => by simp
  | (name, s) :: rest => by
    intro x hx
    rw [memberViolations, List.mem_append] at hx
    rcases hx with hx | hx
    · cases found : memberOf? name v with
      | none => simp [found] at hx
      | some m =>
        rw [found] at hx
        exact (List.prefix_append ..).trans (violations_below (path ++ [name]) m s x hx)
    · exact memberViolations_below path v rest x hx

theorem itemViolations_below (path : List String) (v : ν) :
    (items : Option Schema) → ∀ x ∈ itemViolations path v items, path <+: x.path
  | none => by simp
  | some s => by
    intro x hx
    rw [itemViolations] at hx
    obtain ⟨vs, hvs, hx⟩ := List.mem_flatten.mp hx
    obtain ⟨⟨item, n⟩, -, rfl⟩ := List.mem_map.mp hvs
    exact (List.prefix_append ..).trans (violations_below (path ++ [toString n]) item s x hx)

end

theorem violationsUnder_below {v : ν} {e : String × Schema} {x : Violation ν}
    (h : x ∈ violationsUnder [] v e) : [e.1] <+: x.path := by
  unfold violationsUnder at h
  cases found : memberOf? e.1 v with
  | none => simp [found] at h
  | some m =>
    rw [found] at h
    exact violations_below [e.1] m e.2 x h

/-- Items of the wrong type are all that can be wrong with items of a type. -/
theorem typedItems_violations (path : List String) (v : ν) (type : SchemaType) :
    itemViolations path v (some { types := [type] }) =
      ((itemsOf v).zipIdx.filter fun e => !type.admits (layer e.1)).map fun e =>
        ⟨path ++ [toString e.2], .wrongType e.1 [type]⟩ := by
  have each (e : ν × Nat) : violations (path ++ [toString e.2]) e.1 { types := [type] } =
      if type.admits (layer e.1) then [] else
        [⟨path ++ [toString e.2], .wrongType e.1 [type]⟩] := by
    cases admits : type.admits (layer e.1) <;> simp [violations, typeBreaches, admits]
  show ((itemsOf v).zipIdx.map fun e =>
    violations (path ++ [toString e.2]) e.1 { types := [type] }).flatten = _
  simp only [each]
  induction (itemsOf v).zipIdx with
  | nil => rfl
  | cons e es ih =>
    rw [List.map_cons, List.flatten_cons, ih]
    cases admits : type.admits (layer e.1) <;> simp [admits]

end Schema

end FieldProgram

import FieldProgram.Log
import FieldProgram.Proofs.Outcome
import FieldProgram.Proofs.Record.Field
import FieldProgram.Proofs.Schema.Basic
import FieldProgram.Settings.Source

/-!
# The layout of settings and their members

Settings are checked twice, against their layout and member by member. A document in the right
layout fails the second check for two reasons only: its prime is no integer literal above one, or
its entry point has half of a surrogate pair in it, which the layout does not forbid.

* `Settings.violations_eq_nil_iff`: the layout, stated on the members;
* `Settings.check_eq_valid_iff`: what the members of a document in the layout give;
* `Settings.ofDocument_of_layout`: when the two checks agree.
-/

namespace FieldProgram

variable {ν α : Type}

/-! ## Members -/

/-- What the member under a name gives: a default where there is none, and otherwise what its
outermost layer is read as. -/
def MemberGives (name : String) (default : α) (reads : Layer ν → α → Prop) [Layered ν]
    (ms : List (Label × ν)) (a : α) : Prop :=
  Layer.member? name ms = none ∧ a = default ∨
    ∃ v, Layer.member? name ms = some v ∧ reads (layer v) a

/-- A text is read as it stands. -/
def ReadsText (l : Layer ν) (t : Text) : Prop := l = .str t

/-- So is a truth value. -/
def ReadsTruth (l : Layer ν) (b : Bool) : Prop := l = .bool b

variable [Layered ν] {v : ν} {ms ls : List (Label × ν)}

theorem exists_memberGives_iff {name : String} {default : α} {reads : Layer ν → α → Prop} :
    (∃ a, MemberGives name default reads ms a) ↔
      ∀ w, Layer.member? name ms = some w → ∃ a, reads (layer w) a := by
  constructor
  · rintro ⟨a, ⟨none, -⟩ | ⟨w, found, read⟩⟩ w' found'
    · cases none.symm.trans found'
    · obtain rfl := Option.some.inj (found.symm.trans found')
      exact ⟨a, read⟩
  · intro each
    cases found : Layer.member? (name : Text) ms with
    | none => exact ⟨default, .inl ⟨found, rfl⟩⟩
    | some w =>
      obtain ⟨a, read⟩ := each w found
      exact ⟨a, .inr ⟨w, found, read⟩⟩

/-- A member is read as its layer says if its reader does so on the values that may stand there. -/
theorem optional_eq_valid_iff_memberGives {name : String} {default : α} {read : ν → Checked α}
    {reads : Layer ν → α → Prop}
    (same : ∀ w, Layer.member? name ms = some w → ∀ a, read w = .valid a ↔ reads (layer w) a)
    {a : α} : Field.optional name default read ms = .valid a ↔
      MemberGives name default reads ms a := by
  rw [Field.optional_eq_valid_iff, MemberGives]
  refine or_congr_right (exists_congr fun w => and_congr_right fun found => same w found a)

/-! ## What is logged -/

namespace LogSettings

/-- The members of a section on what is logged. -/
structure InLayout (ls : List (Label × ν)) : Prop where
  level : ∀ w, Layer.member? "level" ls = some w → ∃ c ∈ Settings.levels, layer w = .str (c : Text)
  verbose : ∀ w, Layer.member? "verbose" ls = some w → ∃ b, layer w = .bool b
  known : ∀ m ∈ ls, ∃ name ∈ ["level", "verbose"], m.1.isNamed (name : Text) = true

/-- What the members of a section say, or else the defaults. -/
structure DescribedBy (g : LogSettings) (ls : List (Label × ν)) : Prop where
  level : MemberGives "level" ("info" : Text) ReadsText ls g.level
  verbose : MemberGives "verbose" false ReadsTruth ls g.verbose

theorem InLayout.exists_describedBy (h : InLayout ls) : ∃ g : LogSettings, g.DescribedBy ls := by
  obtain ⟨level, hlevel⟩ : ∃ l, MemberGives "level" ("info" : Text) ReadsText ls l :=
    exists_memberGives_iff.mpr fun w found => by
      obtain ⟨c, -, text⟩ := h.level w found
      exact ⟨c, text⟩
  obtain ⟨verbose, hverbose⟩ : ∃ b, MemberGives "verbose" false ReadsTruth ls b :=
    exists_memberGives_iff.mpr h.verbose
  exact ⟨⟨level, verbose⟩, hlevel, hverbose⟩

end LogSettings

namespace Settings

theorem exists_level {c : String} (h : c ∈ levels) :
    ∃ l, Log.Level.ofName? (c : Text) = some l := by
  have all : ∀ c ∈ levels, (Log.Level.ofName? (c : Text)).isSome = true := by decide
  exact Option.isSome_iff_exists.mp (all c h)

end Settings

/-- The level of a section in the layout is one of those that there are. -/
theorem LogSettings.DescribedBy.exists_level {g : LogSettings} (h : g.DescribedBy ls)
    (inLayout : InLayout ls) : ∃ l, Log.Level.ofName? g.level = some l := by
  rcases h.level with ⟨-, default⟩ | ⟨w, found, text⟩
  · rw [default]
    exact ⟨.info, rfl⟩
  · obtain ⟨c, hc, text'⟩ := inLayout.level w found
    have same : (c : Text) = g.level := by simpa using text'.symm.trans text
    exact same ▸ Settings.exists_level hc

namespace Settings

/-! ## The layout -/

/-- The layout of the section on what is logged. -/
def loggingLayout : Schema where
  types := [.object]
  members := [
    ("level", { types := [.string], choices := some levels }),
    ("verbose", { types := [.boolean] })]
  closed := true

theorem loggingLayout_violations_eq_nil_iff {path : List String} :
    loggingLayout.violations path v = [] ↔ ∃ ls, layer v = .map ls ∧ LogSettings.InLayout ls := by
  rw [loggingLayout, Schema.closedMapping_violations_eq_nil_iff]
  refine exists_congr fun ls => and_congr_right fun _ => ?_
  simp only [List.forall_mem_cons, List.not_mem_nil, false_imp_iff, implies_true, and_true]
  simp only [Schema.chosenText_violations_eq_nil_iff, Schema.typed_violations_eq_nil_iff,
    List.cons_ne_nil, false_or, List.mem_singleton, exists_eq_left, SchemaType.admits_boolean_iff]
  constructor
  · rintro ⟨⟨level, verbose⟩, known⟩
    exact ⟨level, verbose, by simpa using known⟩
  · rintro ⟨level, verbose, known⟩
    exact ⟨⟨level, verbose⟩, by simpa using known⟩

/-- The members of settings. The types of the prime are those that integer literals have. -/
structure InLayout (ms : List (Label × ν)) : Prop where
  entrypoint : ∀ w, Layer.member? "entrypoint" ms = some w →
    ∃ t, layer w = .str t ∧ t.isEmpty = false
  expectedPrime : ∀ w, Layer.member? "expected_prime" ms = some w →
    ∃ type ∈ [SchemaType.string, .integer, .null], type.admits (layer w) = true
  logging : ∀ w, Layer.member? "logging" ms = some w →
    ∃ ls, layer w = .map ls ∧ LogSettings.InLayout ls
  known : ∀ m ∈ ms, ∃ name ∈ ["entrypoint", "expected_prime", "logging"],
    m.1.isNamed (name : Text) = true

theorem violations_eq_nil_iff : violations v = [] ↔ ∃ ms, layer v = .map ms ∧ InLayout ms := by
  have shape : layout = {
      types := [.object]
      members := [
        ("entrypoint", { types := [.string], nonEmpty := true }),
        ("expected_prime", { types := [.string, .integer, .null] }),
        ("logging", loggingLayout)]
      closed := true } := rfl
  rw [violations, Schema.inOrder_eq_nil_iff, shape, Schema.closedMapping_violations_eq_nil_iff]
  refine exists_congr fun ms => and_congr_right fun _ => ?_
  simp only [List.forall_mem_cons, List.not_mem_nil, false_imp_iff, implies_true, and_true,
    Schema.nonEmptyText_violations_eq_nil_iff, Schema.typed_violations_eq_nil_iff,
    loggingLayout_violations_eq_nil_iff, List.cons_ne_nil, false_or]
  constructor
  · rintro ⟨⟨entrypoint, prime, logging⟩, known⟩
    exact ⟨entrypoint, prime, logging, by simpa using known⟩
  · rintro ⟨entrypoint, prime, logging, known⟩
    exact ⟨⟨entrypoint, prime, logging⟩, by simpa using known⟩

/-! ## What members give -/

/-- A prime is given as null, which asks for none, or as an integer literal above one. -/
def ReadsPrime (l : Layer ν) (p : Option Int) : Prop :=
  l = .null ∧ p = none ∨ ∃ n, l.integer = .ok n ∧ 1 < n ∧ p = some n

/-- The entry point, if there is one, is a text of characters. -/
def EntersByCharacters (ms : List (Label × ν)) : Prop :=
  ∀ w t, Layer.member? "entrypoint" ms = some w → layer w = .str t → t.chars? ≠ none

/-- A section is read as the settings of the log that its members describe. -/
def ReadsLogging (l : Layer ν) (g : LogSettings) : Prop := ∃ ls, l = .map ls ∧ g.DescribedBy ls

/-- What the members of a document say, or else the defaults. -/
structure DescribedBy (s : Settings) (ms : List (Label × ν)) : Prop where
  entrypoint : MemberGives "entrypoint" ("main" : Text) ReadsText ms s.entrypoint
  expectedPrime : MemberGives "expected_prime" none ReadsPrime ms s.expectedPrime
  logging : MemberGives "logging" {} ReadsLogging ms s.logging

theorem checkPrime_eq_valid_iff {p : Option Int} :
    Field.nullable checkPrime v = .valid p ↔ ReadsPrime (layer v) p := by
  have above (n : Int) : checkPrime v = .valid n ↔ (layer v).integer = .ok n ∧ 1 < n := by
    rw [checkPrime, Checked.ensure_eq_valid, Field.literal_eq_valid_iff, ite_eq_right_iff]
    simp only [reduceCtorEq, imp_false, Int.not_le]
  have not_null (null : layer v = .null) (n : Int) : checkPrime v ≠ .valid n := by
    simp [above, null, Layer.integer]
  rw [Field.nullable_eq_valid_iff not_null, ReadsPrime]
  simp only [above, and_assoc]

theorem checkLogging_eq_valid_iff {g : LogSettings} (mapping : layer v = .map ls)
    (inLayout : LogSettings.InLayout ls) : checkLogging v = .valid g ↔ g.DescribedBy ls := by
  have level : Field.optional "level" ("info" : Text) Field.string ls = .valid g.level ↔
      MemberGives "level" ("info" : Text) ReadsText ls g.level :=
    optional_eq_valid_iff_memberGives fun _ _ _ => Field.string_eq_valid_iff
  have verbose : Field.optional "verbose" false Field.truth ls = .valid g.verbose ↔
      MemberGives "verbose" false ReadsTruth ls g.verbose :=
    optional_eq_valid_iff_memberGives fun w found _ => by
      obtain ⟨b, h⟩ := inLayout.verbose w found
      exact Field.truth_eq_valid_iff h
  rw [checkLogging, Field.record, mapping]
  simp only [Checked.map_eq_valid, Checked.both_eq_valid]
  constructor
  · rintro ⟨p, ⟨hlevel, hverbose⟩, rfl⟩
    exact ⟨level.mp hlevel, verbose.mp hverbose⟩
  · intro h
    exact ⟨⟨g.level, g.verbose⟩, ⟨level.mpr h.level, verbose.mpr h.verbose⟩, rfl⟩

theorem entrypoint_eq_valid_iff {t : Text} (inLayout : InLayout ms) :
    Field.optional "entrypoint" ("main" : Text) Field.nonEmptyString ms = .valid t ↔
      EntersByCharacters ms ∧
        MemberGives "entrypoint" ("main" : Text) ReadsText ms t := by
  rw [Field.optional_eq_valid_iff]
  constructor
  · rintro (⟨none, rfl⟩ | ⟨w, found, read⟩)
    · refine ⟨fun w t found => ?_, .inl ⟨none, rfl⟩⟩
      cases none.symm.trans found
    · obtain ⟨text, characters, -⟩ := Field.nonEmptyString_eq_valid_iff.mp read
      refine ⟨fun w' t' found' text' => ?_, .inr ⟨w, found, text⟩⟩
      obtain rfl := Option.some.inj (found.symm.trans found')
      obtain rfl := Layer.str.inj (text.symm.trans text')
      exact characters
  · rintro ⟨characters, absent | ⟨w, found, text⟩⟩
    · exact .inl absent
    · obtain ⟨t', text', full⟩ := inLayout.entrypoint w found
      obtain rfl := Layer.str.inj (text.symm.trans text')
      exact .inr ⟨w, found,
        Field.nonEmptyString_eq_valid_iff.mpr ⟨text, characters w t found text, full⟩⟩

/-- A document in the layout gives what its members say, if its entry point has characters only. -/
theorem check_eq_valid_iff {s : Settings} (mapping : layer v = .map ms) (inLayout : InLayout ms) :
    check v = .valid s ↔ EntersByCharacters ms ∧ s.DescribedBy ms := by
  have entrypoint := entrypoint_eq_valid_iff (t := s.entrypoint) inLayout
  have prime : Field.optional "expected_prime" none (Field.nullable checkPrime) ms =
      .valid s.expectedPrime ↔
        MemberGives "expected_prime" none ReadsPrime ms s.expectedPrime :=
    optional_eq_valid_iff_memberGives fun _ _ _ => checkPrime_eq_valid_iff
  have logging : Field.optional "logging" {} checkLogging ms = .valid s.logging ↔
      MemberGives "logging" {} ReadsLogging ms s.logging :=
    optional_eq_valid_iff_memberGives fun w found g => by
      obtain ⟨ls, inner, inside⟩ := inLayout.logging w found
      rw [checkLogging_eq_valid_iff inner inside, inner]
      simp [ReadsLogging]
  rw [check, Field.record, mapping]
  simp only [Checked.map_eq_valid, Checked.both_eq_valid]
  constructor
  · rintro ⟨p, ⟨hentrypoint, hprime, hlogging⟩, rfl⟩
    obtain ⟨characters, hentrypoint⟩ := entrypoint.mp hentrypoint
    exact ⟨characters, hentrypoint, prime.mp hprime, logging.mp hlogging⟩
  · rintro ⟨characters, h⟩
    exact ⟨⟨s.entrypoint, s.expectedPrime, s.logging⟩,
      ⟨entrypoint.mpr ⟨characters, h.entrypoint⟩, prime.mpr h.expectedPrime,
        logging.mpr h.logging⟩, rfl⟩

/-- Members in the layout describe settings as soon as the prime is given right. -/
theorem InLayout.exists_describedBy_iff (inLayout : InLayout ms) :
    (∃ s : Settings, s.DescribedBy ms) ↔
      ∃ p, MemberGives "expected_prime" none ReadsPrime ms p := by
  constructor
  · rintro ⟨s, h⟩
    exact ⟨s.expectedPrime, h.expectedPrime⟩
  · rintro ⟨p, hprime⟩
    obtain ⟨entrypoint, hentrypoint⟩ :
        ∃ t, MemberGives "entrypoint" ("main" : Text) ReadsText ms t :=
      exists_memberGives_iff.mpr fun w found => by
        obtain ⟨t, text, -⟩ := inLayout.entrypoint w found
        exact ⟨t, text⟩
    obtain ⟨logging, hlogging⟩ :
        ∃ g, MemberGives "logging" ({} : LogSettings) ReadsLogging ms g :=
      exists_memberGives_iff.mpr fun w found => by
        obtain ⟨ls, inner, inside⟩ := inLayout.logging w found
        obtain ⟨g, hg⟩ := inside.exists_describedBy
        exact ⟨g, ls, inner, hg⟩
    exact ⟨⟨entrypoint, p, logging⟩, hentrypoint, hprime, hlogging⟩

/-! ## The second check -/

theorem DescribedBy.entrypoint_full {s : Settings} (h : s.DescribedBy ms)
    (inLayout : InLayout ms) : s.entrypoint.isEmpty = false := by
  rcases h.entrypoint with ⟨-, default⟩ | ⟨w, found, text⟩
  · rw [default]
    rfl
  · obtain ⟨t, text', full⟩ := inLayout.entrypoint w found
    obtain rfl := Layer.str.inj (text'.symm.trans text)
    exact full

theorem DescribedBy.exists_level {s : Settings} (h : s.DescribedBy ms) (inLayout : InLayout ms) :
    ∃ l, Log.Level.ofName? s.logging.level = some l := by
  rcases h.logging with ⟨-, default⟩ | ⟨w, found, ls, inner, described⟩
  · rw [default]
    exact ⟨.info, rfl⟩
  · obtain ⟨ls', inner', inside⟩ := inLayout.logging w found
    obtain rfl := Layer.map.inj (inner.symm.trans inner')
    exact described.exists_level inside

theorem ofDocument_eq_ok_iff {path : String} {s : Settings} :
    ofDocument path v = .ok s ↔ check v = .valid s := by
  rw [ofDocument]
  cases check v with
  | valid t => simp [Checked.toExcept]
  | faulty f fs => exact iff_of_false (by rintro ⟨⟩) (by simp)

/-- A document that gives no settings is refused, and there is a message to refuse it with. -/
theorem ofDocument_refused {path : String} (none : ∀ s, ofDocument path v ≠ .ok s) :
    ∃ faults, ofDocument path v = .error (.rejected (.invalid path faults)) := by
  rw [ofDocument] at none ⊢
  cases checked : check v with
  | valid s => exact absurd (by rw [checked]; rfl) (none s)
  | faulty f fs => exact ⟨f :: fs, rfl⟩

/-- A document in the layout gives settings exactly if its entry point has characters only and its
prime is missing, null or an integer literal above one; and then they are what its members say. -/
theorem ofDocument_of_layout (path : String) (mapping : layer v = .map ms)
    (inOrder : violations v = []) :
    ((∃ s, ofDocument path v = .ok s) ↔
      EntersByCharacters ms ∧ ∃ p, MemberGives "expected_prime" none ReadsPrime ms p) ∧
    ((¬∃ s, ofDocument path v = .ok s) →
      ∃ faults, ofDocument path v = .error (.rejected (.invalid path faults))) ∧
    (∀ w x, Layer.member? "expected_prime" ms = some w → layer w = .float x →
      ¬∃ s, ofDocument path v = .ok s) ∧
    ∀ s, ofDocument path v = .ok s →
      s.DescribedBy ms ∧ s.entrypoint.isEmpty = false ∧
        ∃ l, Log.Level.ofName? s.logging.level = some l := by
  obtain ⟨ms', mapping', inLayout⟩ := violations_eq_nil_iff.mp inOrder
  obtain rfl := Layer.map.inj (mapping.symm.trans mapping')
  have gives {s : Settings} :
      ofDocument path v = .ok s ↔ EntersByCharacters ms ∧ s.DescribedBy ms :=
    ofDocument_eq_ok_iff.trans (check_eq_valid_iff mapping inLayout)
  refine ⟨?_, fun none => ofDocument_refused (not_exists.mp none), ?_, ?_⟩
  · rw [← inLayout.exists_describedBy_iff, ← exists_and_left]
    exact exists_congr fun s => gives
  · rintro w x found float ⟨s, hs⟩
    rcases (gives.mp hs).2.expectedPrime with ⟨none, -⟩ | ⟨w', found', read⟩
    · cases none.symm.trans found
    · obtain rfl := Option.some.inj (found.symm.trans found')
      rw [float] at read
      rcases read with ⟨⟨⟩, -⟩ | ⟨n, ⟨⟩, -⟩
  · intro s hs
    have described := (gives.mp hs).2
    exact ⟨described, described.entrypoint_full inLayout, described.exists_level inLayout⟩

/-- The members of a document with a prime, and of the section on the log with a level only. -/
def partialMembers : List (Text × Document) :=
  [("expected_prime", .str "0x11"), ("logging", .map [("level", .str "error")])]

theorem partialMembers_inLayout : InLayout (Document.labelled partialMembers) where
  entrypoint := by rintro w ⟨⟩
  expectedPrime := by
    rintro w ⟨⟩
    exact ⟨.string, by simp, rfl⟩
  logging := by
    rintro w ⟨⟩
    refine ⟨_, rfl, ?_, by rintro w ⟨⟩, by decide⟩
    rintro w ⟨⟩
    exact ⟨"error", by decide, rfl⟩
  known := by decide

theorem ofDocument_partialMembers :
    violations (Document.map partialMembers) = [] ∧
      ∃ s, ofDocument "c.yaml" (Document.map partialMembers) = .ok s ∧
        s.expectedPrime = some 17 ∧ s.DescribedBy (Document.labelled partialMembers) := by
  have inOrder : violations (Document.map partialMembers) = [] :=
    violations_eq_nil_iff.mpr ⟨_, rfl, partialMembers_inLayout⟩
  obtain ⟨gives, -, -, means⟩ := ofDocument_of_layout "c.yaml" rfl inOrder
  have prime : MemberGives "expected_prime" none ReadsPrime (Document.labelled partialMembers)
      (some 17) := .inr ⟨_, rfl, .inr ⟨17, rfl, by decide, rfl⟩⟩
  obtain ⟨s, hs⟩ := gives.mpr ⟨by rintro w t ⟨⟩, _, prime⟩
  obtain ⟨described, -, -⟩ := means s hs
  refine ⟨inOrder, s, hs, ?_, described⟩
  rcases described.expectedPrime with ⟨⟨⟩, -⟩ | ⟨w, ⟨⟩, ⟨⟨⟩, -⟩ | ⟨n, denotes, -, same⟩⟩
  obtain rfl : 17 = n := Except.ok.inj denotes
  exact same

/-- Half of a surrogate pair is a text in the layout, and no entry point. -/
theorem ofDocument_loneEntrypoint :
    ∃ v ms, Yaml.read .standard "entrypoint: \"\\ud800\"\n".toList = .ok v ∧
      layer v = .map ms ∧ violations v = [] ∧ Layer.member? "expected_prime" ms = none ∧
      ∀ path s, ofDocument path v ≠ .ok s := by
  have read : (Yaml.read .standard "entrypoint: \"\\ud800\"\n".toList).map (fun v =>
    (violations v).isEmpty && (Schema.memberOf? "expected_prime" v).isNone &&
      !(check v).faults.isEmpty) = .ok true := by decide +kernel
  obtain ⟨v, hv, facts⟩ := Except.map_eq_ok.mp read
  simp only [Bool.and_eq_true, List.isEmpty_iff, Option.isNone_iff_eq_none, Bool.not_eq_true',
    List.isEmpty_eq_false_iff] at facts
  obtain ⟨⟨inOrder, none⟩, faulty⟩ := facts
  obtain ⟨ms, mapping, -⟩ := violations_eq_nil_iff.mp inOrder
  rw [Schema.memberOf?_of_layer mapping] at none
  refine ⟨v, ms, hv, mapping, inOrder, none, fun path s given => faulty ?_⟩
  rw [ofDocument_eq_ok_iff.mp given]
  rfl

end Settings

end FieldProgram

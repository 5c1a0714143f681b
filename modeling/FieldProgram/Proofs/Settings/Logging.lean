import FieldProgram.Proofs.Settings.Load

/-!
# The section on what is logged

A file of settings may have a section on what is logged. Where that section is exchanged for another
one that the layout accepts, or left out, both checks of the settings end as before, and the
settings differ in what is logged at most.

* `ExchangesLogging.violations_worded`: the layout is broken alike;
* `ExchangesLogging.ofDocument_eq_ok`: the members are read alike;
* `load_exchanged`: so are files, octets and all.
-/

namespace FieldProgram

open Numeral

variable {ν : Type}

/-! ## Values that look alike -/

namespace Layer

/-- A layer without its parts. -/
def hollow : Layer ν → Layer Empty
  | .null => .null
  | .bool b => .bool b
  | .int n => .int n
  | .float x => .float x
  | .str t => .str t
  | .list _ => .list []
  | .map _ => .map []
  | .other => .other

theorem integer_hollow (l : Layer ν) : l.hollow.integer = l.integer := by
  cases l <;> rfl

theorem hollow_eq_str {l : Layer ν} {t : Text} : l.hollow = .str t ↔ l = .str t := by
  cases l <;> simp [hollow]

theorem hollow_eq_null {l : Layer ν} : l.hollow = .null ↔ l = .null := by
  cases l <;> simp [hollow]

end Layer

theorem SchemaType.admits_hollow (t : SchemaType) (l : Layer ν) :
    t.admits l.hollow = t.admits l := by
  cases t <;> cases l <;> rfl

variable [Layered ν] {v w : ν} {ms ns : List (Label × ν)} {path : List String}

/-- Two values are displayed alike, and their outermost layers differ in their parts only. -/
structure LooksAlike (v w : ν) : Prop where
  shown (levels : Nat) : Layered.shown levels v = Layered.shown levels w
  hollow : (layer v).hollow = (layer w).hollow

namespace LooksAlike

theorem symm (h : LooksAlike v w) : LooksAlike w v :=
  ⟨fun levels => (h.shown levels).symm, h.hollow.symm⟩

theorem str_iff (h : LooksAlike v w) {t : Text} : layer v = .str t ↔ layer w = .str t := by
  rw [← Layer.hollow_eq_str, h.hollow, Layer.hollow_eq_str]

theorem null_iff (h : LooksAlike v w) : layer v = .null ↔ layer w = .null := by
  rw [← Layer.hollow_eq_null, h.hollow, Layer.hollow_eq_null]

theorem integer_eq (h : LooksAlike v w) : (layer v).integer = (layer w).integer := by
  rw [← Layer.integer_hollow, h.hollow, Layer.integer_hollow]

theorem admits_eq (h : LooksAlike v w) (t : SchemaType) :
    t.admits (layer v) = t.admits (layer w) := by
  rw [← t.admits_hollow, h.hollow, t.admits_hollow]

end LooksAlike

/-! ## Violations that are worded alike -/

/-- The wording of a breach at each number of levels. -/
def Breach.wording (b : Breach ν) : Nat → Except Limit String := fun levels => b.message levels

/-- The place of a violation and its wording. -/
def Violation.worded (x : Violation ν) : List String × (Nat → Except Limit String) :=
  (x.path, x.breach.wording)

/-- The report of violations depends on their places and wordings only. -/
theorem Violation.report_congr {xs ys : List (Violation ν)} (h : xs.map worded = ys.map worded)
    (room : Room) (title : String) : report room title xs = report room title ys := by
  have each : List.Forall₂ (fun x y : Violation ν => x.worded = y.worded) xs ys := by
    rw [← List.forall₂_eq_eq_eq] at h
    exact List.forall₂_map_right_iff.mp (List.forall₂_map_left_iff.mp h)
  have lines : xs.mapM (line room) = ys.mapM (line room) := by
    refine Except.mapM_congr (each.imp fun x y same => ?_)
    obtain ⟨place, message⟩ := Prod.ext_iff.mp same
    have place : x.path = y.path := place
    have message : x.breach.message (room.shown y.path) = y.breach.message (room.shown y.path) :=
      congrFun message _
    unfold line place?
    rw [place, message]
  rw [report, report, lines]

theorem LooksAlike.wording_wrongType (h : LooksAlike v w) (types : List SchemaType) :
    (Breach.wrongType v types).wording = (Breach.wrongType w types).wording := by
  funext levels
  simp only [Breach.wording, Breach.message, h.shown levels]

theorem LooksAlike.wording_empty (h : LooksAlike v w) :
    (Breach.empty v).wording = (Breach.empty w).wording := by
  funext levels
  simp only [Breach.wording, Breach.message, h.shown levels]

namespace Schema

theorem inOrder_worded (xs : List (Violation ν)) :
    (inOrder xs).map Violation.worded =
      (xs.map Violation.worded).mergeSort fun a b => pathLe a.1 b.1 :=
  List.map_mergeSort fun _ _ _ _ => rfl

theorem typeBreaches_alike (h : LooksAlike v w) (types : List SchemaType) :
    (typeBreaches types v).map Breach.wording = (typeBreaches types w).map Breach.wording := by
  simp only [typeBreaches, h.admits_eq]
  split
  · rfl
  · rw [List.map_singleton, List.map_singleton, h.wording_wrongType]

theorem emptyBreaches_alike (h : LooksAlike v w) (nonEmpty : Bool) :
    (emptyBreaches nonEmpty v).map Breach.wording =
      (emptyBreaches nonEmpty w).map Breach.wording := by
  unfold emptyBreaches
  split
  · rename_i t text
    rw [h.str_iff.mp text]
    dsimp only
    split
    · rw [List.map_singleton, List.map_singleton, h.wording_empty]
    · rfl
  · rename_i other
    split
    · rename_i t text
      exact absurd (h.str_iff.mpr text) (other t)
    · rfl

/-- Values that look alike break a schema alike that does not look at their parts. -/
theorem violations_alike (h : LooksAlike v w) (types : List SchemaType) (nonEmpty : Bool) :
    (violations path v { types, nonEmpty }).map Violation.worded =
      (violations path w { types, nonEmpty }).map Violation.worded := by
  have worded (bs : List (Breach ν)) :
      (bs.map fun b => (⟨path, b⟩ : Violation ν)).map Violation.worded =
        (bs.map Breach.wording).map (path, ·) := by
    simp [Violation.worded]
  simp only [violations, memberViolations, itemViolations, requiredBreaches_nil,
    choiceBreaches_none, closedBreaches_false, List.append_nil, List.map_append, worded,
    typeBreaches_alike h, emptyBreaches_alike h]

end Schema

namespace Settings

/-! ## Exchanging the section on what is logged -/

/-- The members besides the section on what is logged. -/
def besideLogging (ms : List (Label × ν)) : List (Label × ν) :=
  ms.filter fun m => !m.1.isNamed ("logging" : String)

/-- A member of the same name, with a value that looks alike. -/
def MemberAlike (m n : Label × ν) : Prop := m.1 = n.1 ∧ LooksAlike m.2 n.2

/-- The section on what is logged, if there is one, is accepted. -/
def LoggingAccepted (ms : List (Label × ν)) : Prop :=
  ∀ x, Layer.member? "logging" ms = some x → loggingLayout.violations ["logging"] x = []

/-- The members differ in the section on what is logged, which is accepted or not there. -/
structure ExchangesLogging (ms ns : List (Label × ν)) : Prop where
  besides : List.Forall₂ MemberAlike (besideLogging ms) (besideLogging ns)
  before : LoggingAccepted ms
  behind : LoggingAccepted ns

theorem ExchangesLogging.symm (h : ExchangesLogging ms ns) : ExchangesLogging ns ms where
  besides := h.besides.flip.imp fun _ _ same => ⟨same.1.symm, same.2.symm⟩
  before := h.behind
  behind := h.before

theorem isNamed_besides {k : Label} {name : String} (named : k.isNamed (name : Text) = true)
    (other : name ≠ "logging") : k.isNamed ("logging" : String) = false := by
  cases k with
  | other => rfl
  | text t =>
    obtain rfl : t = name := by simpa [Label.isNamed] using named
    simpa [Label.isNamed] using other

omit [Layered ν] in
theorem member?_besideLogging {name : String} (other : name ≠ "logging") :
    Layer.member? name (besideLogging ms) = Layer.member? name ms := by
  rw [Layer.member?, Layer.member?, besideLogging, List.find?_filter]
  congr 2
  funext m
  cases named : m.1.isNamed (name : Text) with
  | false => simp
  | true => simp [isNamed_besides named other]

theorem member?_alike {name : Text} (h : List.Forall₂ MemberAlike ms ns) :
    Layer.member? name ms = none ∧ Layer.member? name ns = none ∨
      ∃ x y, Layer.member? name ms = some x ∧ Layer.member? name ns = some y ∧
        LooksAlike x y := by
  induction h with
  | nil => exact .inl ⟨rfl, rfl⟩
  | @cons m n ms ns first _ ih =>
    obtain ⟨label, alike⟩ := first
    simp only [Layer.member?, List.find?_cons] at ih ⊢
    rw [label]
    cases n.1.isNamed name with
    | true => exact .inr ⟨_, _, rfl, rfl, alike⟩
    | false => exact ih

/-- The other members are found in both, or in none. -/
theorem ExchangesLogging.member? (h : ExchangesLogging ms ns) {name : String}
    (other : name ≠ "logging") :
    Layer.member? name ms = none ∧ Layer.member? name ns = none ∨
      ∃ x y, Layer.member? name ms = some x ∧ Layer.member? name ns = some y ∧
        LooksAlike x y := by
  have beside (ms : List (Label × ν)) : Layer.member? name (besideLogging ms) =
    Layer.member? name ms := member?_besideLogging other
  rw [← beside ms, ← beside ns]
  exact member?_alike h.besides

/-- The names of members that the layout does not know do not depend on the section. -/
theorem ExchangesLogging.closedBreaches_eq (h : ExchangesLogging ms ns)
    (hms : layer v = .map ms) (hns : layer w = .map ns) {names : List String}
    (known : "logging" ∈ names) :
    Schema.closedBreaches true names v = Schema.closedBreaches true names w := by
  have extra (ms : List (Label × ν)) :
      (ms.map Prod.fst).filter (fun k => !(names.any fun n => k.isNamed n)) =
        ((besideLogging ms).map Prod.fst).filter fun k => !(names.any fun n => k.isNamed n) := by
    rw [besideLogging, List.filter_map, List.filter_map, List.filter_filter]
    refine congrArg _ (List.filter_congr fun m _ => ?_)
    cases section_ : m.1.isNamed ("logging" : String) with
    | false => simp
    | true =>
      have found : (names.any fun n => m.1.isNamed n) = true :=
        List.any_eq_true.mpr ⟨_, known, section_⟩
      simp [found]
  have labels : (besideLogging ms).map Prod.fst = (besideLogging ns).map Prod.fst := by
    rw [← List.forall₂_eq_eq_eq]
    exact List.forall₂_map_right_iff.mpr (List.forall₂_map_left_iff.mpr
      (h.besides.imp fun _ _ same => same.1))
  rw [Schema.closedBreaches, hms, Schema.closedBreaches, hns]
  dsimp only
  rw [extra ms, extra ns, labels]

/-- Each member of the layout is broken alike. -/
theorem ExchangesLogging.violationsUnder_worded (h : ExchangesLogging ms ns)
    (hms : layer v = .map ms) (hns : layer w = .map ns) :
    ∀ e ∈ layout.members, (Schema.violationsUnder [] v e).map Violation.worded =
      (Schema.violationsUnder [] w e).map Violation.worded := by
  have member {name : String} (other : name ≠ "logging") (types : List SchemaType)
      (nonEmpty : Bool) :
      (Schema.violationsUnder [] v (name, { types, nonEmpty })).map Violation.worded =
        (Schema.violationsUnder [] w (name, { types, nonEmpty })).map Violation.worded := by
    simp only [Schema.violationsUnder, Schema.memberOf?_of_layer hms, Schema.memberOf?_of_layer hns]
    rcases h.member? other with ⟨none, none'⟩ | ⟨x, y, found, found', alike⟩
    · rw [none, none']
    · rw [found, found']
      exact Schema.violations_alike alike types nonEmpty
  have logging {ms : List (Label × ν)} {v : ν} (hms : layer v = .map ms)
      (accepted : LoggingAccepted ms) :
      Schema.violationsUnder [] v ("logging", loggingLayout) = [] :=
    Schema.violationsUnder_eq_nil_iff.mpr fun x found =>
      accepted x (Schema.memberOf?_of_layer hms _ ▸ found)
  refine List.forall_mem_cons.mpr ⟨member (by decide) _ _, List.forall_mem_cons.mpr
    ⟨member (by decide) _ _, List.forall_mem_singleton.mpr ?_⟩⟩
  exact (congrArg _ (logging hms h.before)).trans (congrArg _ (logging hns h.behind)).symm

/-- The layout is broken alike. -/
theorem ExchangesLogging.violations_worded (h : ExchangesLogging ms ns) (hms : layer v = .map ms)
    (hns : layer w = .map ns) :
    (violations v).map Violation.worded = (violations w).map Violation.worded := by
  have known : "logging" ∈ layout.members.map Prod.fst := by decide
  rw [violations, violations, Schema.inOrder_worded, Schema.inOrder_worded]
  congr 1
  show (Schema.violations [] v
      { types := [.object], members := layout.members, closed := true }).map _ =
    (Schema.violations [] w
      { types := [.object], members := layout.members, closed := true }).map _
  rw [Schema.closedMapping_violations hms, Schema.closedMapping_violations hns,
    h.closedBreaches_eq hms hns known, List.map_append, List.map_append, List.map_flatMap,
    List.map_flatMap]
  congr 1
  exact List.flatMap_congr (h.violationsUnder_worded hms hns)

/-! ## Loading with another section -/

/-- What a member besides the section gives, if its layer is read without regard to its parts. -/
theorem ExchangesLogging.memberGives (h : ExchangesLogging ms ns) {α : Type} {name : String}
    (other : name ≠ "logging") {default a : α} {reads : Layer ν → α → Prop}
    (alike : ∀ {x y : ν}, LooksAlike x y → reads (layer x) a → reads (layer y) a)
    (gives : MemberGives name default reads ms a) : MemberGives name default reads ns a := by
  rcases h.member? other with ⟨none, none'⟩ | ⟨x, y, found, found', same⟩
  · rcases gives with ⟨-, default⟩ | ⟨x, found, -⟩
    · exact .inl ⟨none', default⟩
    · cases none.symm.trans found
  · rcases gives with ⟨none, -⟩ | ⟨x', found'', read⟩
    · cases none.symm.trans found
    · obtain rfl := Option.some.inj (found.symm.trans found'')
      exact .inr ⟨y, found', alike same read⟩

theorem ExchangesLogging.entersByCharacters (h : ExchangesLogging ms ns)
    (characters : EntersByCharacters ms) : EntersByCharacters ns := by
  intro y t found' text
  have other : "entrypoint" ≠ "logging" := by decide
  rcases h.member? other with ⟨-, none⟩ | ⟨x, y', found, found'', same⟩
  · cases none.symm.trans found'
  · obtain rfl := Option.some.inj (found'.symm.trans found'')
    exact characters x t found (same.str_iff.mpr text)

/-- Settings that differ in what is logged at most. -/
structure SameButLogging (s s' : Settings) : Prop where
  entrypoint : s.entrypoint = s'.entrypoint
  expectedPrime : s.expectedPrime = s'.expectedPrime

/-- In the layout, the second check has the same result but for what is logged. -/
theorem ExchangesLogging.ofDocument_eq_ok (h : ExchangesLogging ms ns) (hms : layer v = .map ms)
    (hns : layer w = .map ns) (inLayout : InLayout ms) (inLayout' : InLayout ns) {text : String}
    {s : Settings} (given : ofDocument text v = .ok s) :
    ∃ s', ofDocument text w = .ok s' ∧ SameButLogging s s' := by
  obtain ⟨characters, described⟩ :=
    (check_eq_valid_iff hms inLayout).mp (ofDocument_eq_ok_iff.mp given)
  have entrypoint : MemberGives "entrypoint" ("main" : Text) ReadsText ns s.entrypoint :=
    h.memberGives (by decide) (fun same => same.str_iff.mp) described.entrypoint
  have prime : MemberGives "expected_prime" none ReadsPrime ns s.expectedPrime := by
    refine h.memberGives (by decide) (fun same read => ?_) described.expectedPrime
    rwa [ReadsPrime, ← same.null_iff, ← same.integer_eq]
  obtain ⟨g, hg⟩ := inLayout'.exists_describedBy_iff.mpr ⟨_, prime⟩
  have valid : check w = .valid ⟨s.entrypoint, s.expectedPrime, g.logging⟩ :=
    (check_eq_valid_iff hns inLayout').mpr
      ⟨h.entersByCharacters characters, entrypoint, prime, hg.logging⟩
  exact ⟨_, ofDocument_eq_ok_iff.mpr valid, rfl, rfl⟩

/-- Two loads end alike: with settings that differ in what is logged at most, with messages, or
with none for one reason. -/
inductive EndsAlike : Except SettingsFailure Settings → Except SettingsFailure Settings → Prop
  | loaded {s s' : Settings} (same : SameButLogging s s') : EndsAlike (.ok s) (.ok s')
  | refused (e e' : SettingsError) (worded : ∃ t, e.message = .ok t)
    (worded' : ∃ t, e'.message = .ok t) :
    EndsAlike (.error (.rejected e)) (.error (.rejected e'))
  | limit (l : Limit) : EndsAlike (.error (.limit l)) (.error (.limit l))

theorem ExchangesLogging.ofDocument_alike (h : ExchangesLogging ms ns) (hms : layer v = .map ms)
    (hns : layer w = .map ns) (inLayout : InLayout ms) (inLayout' : InLayout ns) (text : String) :
    EndsAlike (ofDocument text v) (ofDocument text w) := by
  by_cases given : ∃ s, ofDocument text v = .ok s
  · obtain ⟨s, hs⟩ := given
    obtain ⟨s', hs', same⟩ := h.ofDocument_eq_ok hms hns inLayout inLayout' hs
    rw [hs, hs']
    exact .loaded same
  · have none : ∀ s, ofDocument text w ≠ .ok s := fun s hs =>
      given ((h.symm.ofDocument_eq_ok hns hms inLayout' inLayout hs).imp fun _ => And.left)
    obtain ⟨faults, refused⟩ := ofDocument_refused (not_exists.mp given)
    obtain ⟨faults', refused'⟩ := ofDocument_refused none
    rw [refused, refused']
    exact .refused _ _ ⟨_, rfl⟩ ⟨_, rfl⟩

/-- Both checks end alike if the sections on what is logged are exchanged. -/
theorem ExchangesLogging.checks_alike {v w : Yaml.Value} {ms ns : List (Label × Yaml.Value)}
    (h : ExchangesLogging ms ns) (hms : layer v = .map ms) (hns : layer w = .map ns) (room : Room)
    (text : String) :
    EndsAlike (checkLayout room v >>= fun _ => ofDocument text v)
      (checkLayout room w >>= fun _ => ofDocument text w) := by
  have worded := h.violations_worded hms hns
  unfold checkLayout
  cases broken : violations v with
  | nil =>
    have broken' : violations w = [] := by simpa [broken] using worded.symm
    obtain ⟨ms', hms', inLayout⟩ := violations_eq_nil_iff.mp broken
    obtain ⟨ns', hns', inLayout'⟩ := violations_eq_nil_iff.mp broken'
    obtain rfl := Layer.map.inj (hms.symm.trans hms')
    obtain rfl := Layer.map.inj (hns.symm.trans hns')
    rw [broken']
    exact h.ofDocument_alike hms hns inLayout inLayout' text
  | cons first rest =>
    cases broken' : violations w with
    | nil => simp [broken, broken'] at worded
    | cons first' rest' =>
      rw [broken, broken'] at worded
      have same := Violation.report_congr worded room "Loader config validation failed:"
      have message : (SettingsError.layout room first rest).message =
        (SettingsError.layout room first' rest').message := same
      dsimp only
      rw [SettingsError.fail_bind, SettingsError.fail_bind, SettingsError.fail,
        SettingsError.fail, ← message]
      cases report : (SettingsError.layout room first rest).message with
      | ok t => exact .refused _ _ ⟨t, report⟩ ⟨t, message ▸ report⟩
      | error l => exact .limit l

/-! ## Files -/

/-- The value that a file is taken to hold: a vacant one counts as a mapping without members. -/
def taken (v : Yaml.Value) : Yaml.Value := if v.isVacant then .emptyMap else v

theorem load_held {room : Room} {files : Files} {path : FilePath} {octets : List UInt8}
    {v : Yaml.Value} (file : files path = some (.file octets)) (held : Holds room octets v) :
    load room files path =
      (checkLayout room (taken v) >>= fun _ => ofDocument path.text (taken v)) := by
  obtain ⟨cs, text, value⟩ := held
  rw [load_file file, readOctets, text]
  dsimp only
  rw [value]
  rfl

/-- Octets that hold two mappings, read in one room, with exchanged sections on what is logged. -/
def ExchangesIn (room : Room) (octets octets' : List UInt8) : Prop :=
  ∃ v w ms ns, Holds room octets v ∧ Holds room octets' w ∧ layer (taken v) = .map ms ∧
    layer (taken w) = .map ns ∧ ExchangesLogging ms ns

theorem load_exchanged {room : Room} {files files' : Files} {path : FilePath}
    {octets octets' : List UInt8}
    (file : files path = some (.file octets)) (file' : files' path = some (.file octets'))
    (h : ExchangesIn room octets octets') :
    EndsAlike (load room files path) (load room files' path) := by
  obtain ⟨v, w, ms, ns, held, held', hms, hns, exchanged⟩ := h
  rw [load_held file held, load_held file' held']
  exact exchanged.checks_alike hms hns room path.text

end Settings

end FieldProgram

import FieldProgram.Proofs.Outcome
import FieldProgram.Proofs.Related
import FieldProgram.Proofs.Settings.Agreement

/-!
# How loading a file of settings ends

A file of settings gives settings, or it is refused with a message, or there is no message to give:
its octets are no text, its text has a value that does not exist or is not made in the room that is
left, or a violation of the layout can only be shown with an overlong integer or by going too deep
into a value.

* `Ends`: the ways to end, with what each says about the octets of the file;
* `load_ends`: every load ends in one of them.
-/

namespace FieldProgram

open Numeral

/-! ## Errors -/

theorem SettingsError.fail_bind {α β : Type} (e : SettingsError)
    (next : α → Except SettingsFailure β) : (e.fail >>= next) = e.fail := by
  unfold fail
  cases e.message <;> rfl

/-- A report fails exactly if one of the violations has no message. -/
theorem Violation.report_eq_error_iff {ν : Type} [Layered ν] {room : Room} {title : String}
    {vs : List (Violation ν)} :
    (∃ l, report room title vs = .error l) ↔
      ∃ x ∈ vs, ∃ l, x.breach.message (room.shown x.path) = .error l := by
  have unsaid (x : Violation ν) (l : Limit) :
      x.line room = .error l ↔ x.breach.message (room.shown x.path) = .error l := by
    rw [line, Except.bind_eq_error]
    simp [pure, Except.pure]
  constructor
  · rintro ⟨l, hl⟩
    rcases Except.bind_eq_error.mp hl with hl | ⟨parts, -, ⟨⟩⟩
    obtain ⟨before, x, after, rfl, -, hx⟩ := Except.mapM_eq_error_iff.mp hl
    exact ⟨x, by simp, l, (unsaid x l).mp hx⟩
  · rintro ⟨x, hx, l, hl⟩
    cases h : report room title vs with
    | error l => exact ⟨l, rfl⟩
    | ok t =>
      obtain ⟨parts, hparts, -⟩ := Except.bind_eq_ok.mp h
      obtain ⟨s, -, hs⟩ := exists_right_of_forall₂ (Except.mapM_eq_ok_iff.mp hparts) x hx
      cases ((unsaid x l).mpr hl).symm.trans hs

namespace Settings

/-! ## Documents -/

theorem violations_emptyMap : violations Yaml.Value.emptyMap = [] :=
  violations_eq_nil_iff.mpr ⟨[], rfl, by rintro w ⟨⟩, by rintro w ⟨⟩, by rintro w ⟨⟩, by simp⟩

/-! ## Ways to end -/

/-- The octets are a text that denotes the value, which is made in the given room. -/
def Holds (room : Room) (octets : List UInt8) (v : Yaml.Value) : Prop :=
  ∃ cs, Text.Utf8.decode octets = .ok cs ∧ Yaml.read room (Yaml.plainBreaksOf cs) = .ok v

/-- The value gives the settings: the defaults if it is vacant, and otherwise those that a mapping
in the right layout has in it. -/
def Gives (v : Yaml.Value) (s : Settings) : Prop :=
  v.isVacant = true ∧ s = {} ∨
    v.isVacant = false ∧ (∃ ms, layer v = .map ms) ∧ violations v = [] ∧ check v = .valid s

/-- There is no message to refuse the octets with. -/
inductive Escapes (room : Room) (octets : List UInt8) : Prop
  | undecodable (e : Text.DecodeError) (h : Text.Utf8.decode octets = .error e)
  | value (cs : List Char) (f : Yaml.ValueFault) (text : Text.Utf8.decode octets = .ok cs)
    (h : Yaml.read room (Yaml.plainBreaksOf cs) = .error (.value f))
  | unworded (v : Yaml.Value) (x : Violation Yaml.Value) (l : Limit) (held : Holds room octets v)
    (full : v.isVacant = false) (hx : x ∈ violations v)
    (h : x.breach.message (room.shown x.path) = .error l)

/-- How loading from octets may end. -/
inductive Ends (room : Room) (octets : List UInt8) : Except SettingsFailure Settings → Prop
  | loaded (v : Yaml.Value) (s : Settings) (held : Holds room octets v) (gives : Gives v s) :
    Ends room octets (.ok s)
  | refused (e : SettingsError) (worded : ∃ t, e.message = .ok t)
    (none : ∀ v s, Holds room octets v → ¬ Gives v s) (contained : ¬ Escapes room octets) :
    Ends room octets (.error (.rejected e))
  | escaped (f : SettingsFailure) (other : ∀ e, f ≠ .rejected e) (escapes : Escapes room octets) :
    Ends room octets (.error f)

variable {room : Room} {octets : List UInt8}

theorem Holds.unique {v w : Yaml.Value} (h : Holds room octets v)
    (h' : Holds room octets w) : v = w := by
  obtain ⟨cs, text, hv⟩ := h
  obtain ⟨cs', text', hw⟩ := h'
  obtain rfl := Except.ok.inj (text.symm.trans text')
  exact Except.ok.inj (hv.symm.trans hw)

/-- Octets that hold a value escape only by a violation of the layout. -/
theorem Holds.escapes_iff {v : Yaml.Value} (held : Holds room octets v) :
    Escapes room octets ↔ v.isVacant = false ∧
      ∃ x ∈ violations v, ∃ l, x.breach.message (room.shown x.path) = .error l := by
  have ⟨cs, text, value⟩ := held
  constructor
  · intro escapes
    cases escapes with
    | undecodable e h => cases text.symm.trans h
    | value cs' f text' h =>
      obtain rfl := Except.ok.inj (text.symm.trans text')
      cases value.symm.trans h
    | unworded w x l held' full hx h =>
      obtain rfl := held.unique held'
      exact ⟨full, x, hx, l, h⟩
  · rintro ⟨full, x, hx, l, h⟩
    exact .unworded v x l held full hx h

/-! ## Loading -/

/-- A document in the right layout gives settings unless a member is at fault. -/
theorem ends_of_layout {v : Yaml.Value} (held : Holds room octets v)
    (full : v.isVacant = false) (layout : violations v = []) (path : String) :
    Ends room octets (ofDocument path v) := by
  rw [ofDocument]
  cases checked : check v with
  | valid s =>
    obtain ⟨ms, mapping, -⟩ := violations_eq_nil_iff.mp layout
    exact .loaded v s held (.inr ⟨full, ⟨ms, mapping⟩, layout, checked⟩)
  | faulty f fs =>
    refine .refused (.invalid path (f :: fs)) ⟨_, rfl⟩ ?_ ?_
    · intro w s held' gives
      obtain rfl := held.unique held'
      rcases gives with ⟨vacant, -⟩ | ⟨-, -, -, checked'⟩
      · cases full.symm.trans vacant
      · cases checked.symm.trans checked'
    · rw [held.escapes_iff, layout]
      rintro ⟨-, x, ⟨⟩, -⟩

/-- A document that breaks the layout is refused if the report of it can be written. -/
theorem ends_of_violations {v : Yaml.Value} (held : Holds room octets v)
    (full : v.isVacant = false) {first : Violation Yaml.Value}
    {rest : List (Violation Yaml.Value)} (broken : violations v = first :: rest) :
    Ends room octets (SettingsError.layout room first rest).fail := by
  have unsaid : Escapes room octets ↔
      ∃ l, (SettingsError.layout room first rest).message = .error l := by
    rw [held.escapes_iff, broken, ← Violation.report_eq_error_iff]
    exact and_iff_right full
  unfold SettingsError.fail
  split
  · rename_i t ht
    refine .refused _ ⟨t, ht⟩ ?_ ?_
    · intro w s held' gives
      obtain rfl := held.unique held'
      rcases gives with ⟨vacant, -⟩ | ⟨-, -, layout, -⟩
      · cases full.symm.trans vacant
      · cases broken.symm.trans layout
    · rw [unsaid]
      rintro ⟨l, hl⟩
      cases ht.symm.trans hl
  · rename_i l hl
    exact .escaped _ (by simp) (unsaid.mpr ⟨l, hl⟩)

theorem ends_of_value {v : Yaml.Value} (held : Holds room octets v)
    (path : String) :
    Ends room octets (checkLayout room (if v.isVacant then .emptyMap else v) >>= fun _ =>
      ofDocument path (if v.isVacant then .emptyMap else v)) := by
  cases vacant : v.isVacant with
  | true =>
    have layout : checkLayout room .emptyMap = .ok () := by
      rw [checkLayout, violations_emptyMap]
    rw [if_pos rfl, layout]
    exact .loaded v {} held (.inl ⟨vacant, rfl⟩)
  | false =>
    rw [if_neg Bool.false_ne_true, checkLayout]
    cases broken : violations v with
    | nil => exact ends_of_layout held vacant broken path
    | cons first rest =>
      show Ends room octets
        ((SettingsError.layout room first rest).fail >>= fun _ => ofDocument path v)
      rw [SettingsError.fail_bind]
      exact ends_of_violations held vacant broken

theorem load_file {files : Files} {path : FilePath}
    (file : files path = some (.file octets)) :
    load room files path = readOctets room path.text octets >>= fun v =>
      checkLayout room v >>= fun _ => ofDocument path.text v := by
  rw [load, readDocument, file]
  dsimp only
  cases readOctets room path.text octets with
  | error f => rfl
  | ok v =>
    show (checkLayout room v >>= fun _ => pure v) >>= _ = checkLayout room v >>= _
    cases checkLayout room v <;> rfl

/-- Every load of a file ends in one of the ways. -/
theorem load_ends {files : Files} {path : FilePath}
    (file : files path = some (.file octets)) : Ends room octets (load room files path) := by
  rw [load_file file, readOctets]
  cases text : Text.Utf8.decode octets with
  | error e => exact .escaped (.undecodable e) (by simp) (.undecodable e text)
  | ok cs =>
    dsimp only
    cases value : Yaml.read room (Yaml.plainBreaksOf cs) with
    | ok v => exact ends_of_value ⟨cs, text, value⟩ path.text
    | error fault =>
      have empty : ∀ v, ¬ Holds room octets v := by
        rintro v ⟨cs', text', value'⟩
        obtain rfl := Except.ok.inj (text.symm.trans text')
        cases value.symm.trans value'
      cases fault with
      | value f => exact .escaped (.value f) (by simp) (.value cs f text value)
      | malformed f =>
        refine .refused (.notYaml path.text f) ⟨_, rfl⟩ (fun v _ held _ => empty v held) ?_
        intro escapes
        cases escapes with
        | undecodable e h => cases text.symm.trans h
        | value cs' f' text' h =>
          obtain rfl := Except.ok.inj (text.symm.trans text')
          cases value.symm.trans h
        | unworded v x l held full hx h => exact empty v held

/-! ## The entry point -/

/-- Settings that are read have an entry point that can be written as a word. -/
theorem check_entrypoint {ν : Type} [Layered ν] {v : ν} {s : Settings} (h : check v = .valid s) :
    ∃ e : String, s.entrypoint = e ∧ e ≠ "" := by
  unfold check Field.record at h
  split at h
  · obtain ⟨p, both, rfl⟩ := Checked.map_eq_valid.mp h
    obtain ⟨entrypoint, -⟩ := Checked.both_eq_valid.mp both
    rcases Field.optional_eq_valid_iff.mp entrypoint with ⟨-, default⟩ | ⟨w, -, read⟩
    · exact ⟨"main", default, by decide⟩
    · obtain ⟨-, characters, full⟩ := Field.nonEmptyString_eq_valid_iff.mp read
      obtain ⟨cs, hcs⟩ := Option.ne_none_iff_exists'.mp characters
      have same := Text.chars?_eq_some_iff.mp hcs
      refine ⟨String.ofList cs, by simpa [Text.ofString] using same, ?_⟩
      intro empty
      obtain rfl : cs = [] := by simpa using empty
      rw [same] at full
      cases full
  · cases h

theorem load_entrypoint {files : Files} {path : FilePath} {s : Settings}
    (h : load room files path = .ok s) : ∃ e : String, s.entrypoint = e ∧ e ≠ "" := by
  obtain ⟨v, -, given⟩ := Except.bind_eq_ok.mp h
  exact check_entrypoint (ofDocument_eq_ok_iff.mp given)

/-! ## What the ways say -/

/-- Octets that give settings do not escape. -/
theorem Gives.contained {v : Yaml.Value} {s : Settings}
    (held : Holds room octets v) (gives : Gives v s) : ¬ Escapes room octets := by
  rw [held.escapes_iff]
  rintro ⟨full, x, hx, -⟩
  rcases gives with ⟨vacant, -⟩ | ⟨-, -, layout, -⟩
  · cases full.symm.trans vacant
  · rw [layout] at hx
    cases hx

theorem Gives.unique {v : Yaml.Value} {s t : Settings} (h : Gives v s) (h' : Gives v t) :
    s = t := by
  rcases h with ⟨vacant, rfl⟩ | ⟨full, -, -, checked⟩ <;>
    rcases h' with ⟨vacant', rfl⟩ | ⟨full', -, -, checked'⟩
  · rfl
  · cases vacant.symm.trans full'
  · cases full.symm.trans vacant'
  · exact Checked.valid.inj (checked.symm.trans checked')

namespace Ends

variable {r : Except SettingsFailure Settings}

theorem eq_ok_iff (ends : Ends room octets r) {s : Settings} :
    r = .ok s ↔ ∃ v, Holds room octets v ∧ Gives v s := by
  cases ends with
  | loaded v t held gives =>
    constructor
    · rintro ⟨⟩
      exact ⟨v, held, gives⟩
    · rintro ⟨w, held', gives'⟩
      obtain rfl := held.unique held'
      rw [gives.unique gives']
  | refused e _ none _ =>
    constructor
    · rintro ⟨⟩
    · rintro ⟨v, held, gives⟩
      exact absurd gives (none v s held)
  | escaped f _ escapes =>
    constructor
    · rintro ⟨⟩
    · rintro ⟨v, held, gives⟩
      exact absurd escapes (gives.contained held)

end Ends

end Settings

end FieldProgram

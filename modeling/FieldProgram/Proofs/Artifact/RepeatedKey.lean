import FieldProgram.Proofs.Artifact.Deep
import FieldProgram.Proofs.Json.Distinct

/-!
# Artifacts with a repeated key

A text loads exactly when it is JSON, none of its mappings repeats a key, and the document that it
stands for loads. Where the text is at fault, nothing but that is looked at. The keys of an object
are looked at in a call of its own, so for one that is open inside all the brackets that may be, the
call fails, and the text is refused as well.

* `Json.leavesCalls_of_json`: every object leaves that call where a text is JSON with one level to
  spare;
* `Json.repeatsKey_iff`: then a key is repeated where the two policies part;
* `load_text_eq_ok_iff`: what a text loads to, and that a faulty text is refused at once;
* `load_deepText_unchecked`: a text with an object for which the call fails.
-/

namespace FieldProgram

namespace Json

/-- In some mapping of the text, at any depth, two members have keys that read the same. -/
def RepeatsKey (text : List Code) : Prop :=
  ∃ levels tree, SpellsText levels text tree ∧ ¬ tree.KeysDistinct

/-- Where brackets may be `levels` deep, every object of the text leaves a call to look at its
keys. -/
def LeavesCalls (levels : Nat) (text : List Code) : Prop :=
  ∀ l tree, SpellsText l text tree → tree.Closes levels

/-- Every text that is JSON has a tree in which to look for repeated keys. -/
theorem exists_tree_iff {levels : Nat} {text : List Code} :
    (∃ tree, SpellsText levels text tree) ↔ ∃ d, readMarked .keepLast levels text = .ok d := by
  constructor
  · rintro ⟨tree, spelled⟩
    obtain ⟨d, settled⟩ := exists_settle_keepLast tree levels
    exact ⟨d, readMarked_eq_ok_iff.mpr ⟨tree, spelled, settled⟩⟩
  · rintro ⟨d, h⟩
    obtain ⟨tree, spelled, -⟩ := readMarked_eq_ok_iff.mp h
    exact ⟨tree, spelled⟩

theorem readMarked_rejectRepeated_eq_ok_iff {levels : Nat} {text : List Code} {d : Document} :
    readMarked .rejectRepeated levels text = .ok d ↔
      readMarked .keepLast levels text = .ok d ∧ ¬ RepeatsKey text ∧ LeavesCalls levels text := by
  rw [readMarked_eq_ok_iff, readMarked_eq_ok_iff]
  constructor
  · rintro ⟨tree, spelled, settled⟩
    obtain ⟨distinct, closes, rfl⟩ := settle_rejectRepeated_eq_ok_iff.mp settled
    have kept := settle_of_keysDistinct .keepLast d distinct levels (by simp)
    refine ⟨⟨d, spelled, kept⟩, ?_, fun l tree spelled' => ?_⟩
    · rintro ⟨l, tree, spelled', repeated⟩
      rw [spelled'.unique spelled] at repeated
      exact repeated distinct
    · rw [spelled'.unique spelled]
      exact closes
  · rintro ⟨⟨tree, spelled, settled⟩, never, leaves⟩
    have distinct : tree.KeysDistinct := by
      by_contra repeated
      exact never ⟨levels, tree, spelled, repeated⟩
    rw [settle_of_keysDistinct .keepLast tree distinct levels (by simp)] at settled
    obtain rfl := Except.ok.inj settled
    have closes := leaves levels tree spelled
    exact ⟨tree, spelled, settle_rejectRepeated_eq_ok_iff.mpr ⟨distinct, closes, rfl⟩⟩

/-- A text that is JSON with one level to spare leaves all the calls. -/
theorem leavesCalls_of_json {levels : Nat} {text : List Code}
    (json : ∃ d, readMarked .keepLast levels text = .ok d) : LeavesCalls (levels + 1) text := by
  obtain ⟨tree, spelled⟩ := exists_tree_iff.mpr json
  intro l tree' spelled'
  obtain rfl := spelled'.unique spelled
  exact (spelled.spare (Nat.lt_succ_self levels)).2

theorem repeatsKey_iff {levels : Nat} {text : List Code} (leaves : LeavesCalls levels text)
    (json : ∃ d, readMarked .keepLast levels text = .ok d) :
    RepeatsKey text ↔ ¬ ∃ d, readMarked .rejectRepeated levels text = .ok d := by
  constructor
  · rintro repeated ⟨d, h⟩
    exact (readMarked_rejectRepeated_eq_ok_iff.mp h).2.1 repeated
  · intro refused
    obtain ⟨d, kept⟩ := json
    by_contra never
    exact refused ⟨d, readMarked_rejectRepeated_eq_ok_iff.mpr ⟨kept, never, leaves⟩⟩

end Json

namespace Artifact

theorem readText_eq_ok_iff {read : List Code → Except Json.ReadError Document} {cs : List Code}
    {d : Document} : readText read cs = .ok d ↔ read cs = .ok d := by
  unfold readText
  cases read cs <;> simp [LoadError.fail_ne_ok]

theorem document_text_eq_ok_iff {room : Room} {t : Text} {d : Document} :
    Content.document room (.text t) = .ok d ↔
      Json.readMarked .keepLast room.brackets t.codes = .ok d ∧ ¬ Json.RepeatsKey t.codes ∧
        Json.LeavesCalls room.brackets t.codes := by
  rw [← Json.readMarked_rejectRepeated_eq_ok_iff]
  exact readText_eq_ok_iff

/-- What is wrong with a text is found before anything is made of it. -/
theorem load_text_of_not_json {room : Room} {t : Text} {e : Json.ReadError}
    (wrong : Json.readMarked .rejectRepeated room.inner.brackets t.codes = .error e)
    (files : Files) (entrypoint : Text) (expected : Option Int) :
    (Source.content (.text t)).load room files entrypoint expected =
      ⟨[], .error (.rejected (.notJson t.codes e))⟩ := by
  have worded : (LoadError.notJson t.codes e).Worded := ⟨_, rfl⟩
  have refused : Content.document room.inner (.text t) =
      .error (.rejected (.notJson t.codes e)) := by
    show readText (Json.readMarked _ room.inner.brackets) _ = _
    rw [readText, wrong]
    exact LoadError.fail_eq worded
  show Log.Run.andThen (Log.Run.ofExcept (Content.document room.inner (.text t))) _ = _
  rw [refused]
  rfl

/-- A text loads exactly if it is JSON, repeats no key, has an object nowhere that leaves no call to
look at its keys, and its value loads. A text that is at fault in one of the first three ways is
refused before anything else is looked at. -/
theorem load_text_eq_ok_iff (room : Room) (files : Files) (t : Text) :
    (∀ entrypoint expected p,
      ((Source.content (.text t)).load room files entrypoint expected).outcome = .ok p ↔
        ∃ d, Json.readMarked .keepLast room.inner.brackets t.codes = .ok d ∧
          ¬ Json.RepeatsKey t.codes ∧ Json.LeavesCalls room.inner.brackets t.codes ∧
            (load room.inner d entrypoint expected).outcome = .ok p) ∧
    ((¬ ∃ d, Json.readMarked .keepLast room.inner.brackets t.codes = .ok d) ∨
        Json.RepeatsKey t.codes ∨ ¬ Json.LeavesCalls room.inner.brackets t.codes →
      ∃ e, (LoadError.notJson t.codes e).area = .malformed ∧ ∀ entrypoint expected,
        (Source.content (.text t)).load room files entrypoint expected =
          ⟨[], .error (.rejected (.notJson t.codes e))⟩) := by
  constructor
  · intro entrypoint expected p
    rw [outcome_load_content, Except.bind_eq_ok]
    simp only [document_text_eq_ok_iff, and_assoc]
  · intro faulty
    cases h : Json.readMarked .rejectRepeated room.inner.brackets t.codes with
    | error e => exact ⟨e, rfl, load_text_of_not_json h files⟩
    | ok d =>
      obtain ⟨kept, never, leaves⟩ := Json.readMarked_rejectRepeated_eq_ok_iff.mp h
      rcases faulty with not_json | repeated | unchecked
      · exact absurd ⟨d, kept⟩ not_json
      · exact absurd repeated never
      · exact absurd leaves unchecked

/-- A text that repeats a key, once in an escape, inside a section that is otherwise ignored. -/
def repeatingText : Text :=
  "\x7b\"prime\":\"0x7\",\"debug_info\":[\x7b\"a\":1,\"\\u0061\":2\x7d]\x7d"

theorem load_repeatingText :
    Json.LeavesCalls Room.standard.inner.brackets repeatingText.codes ∧
    Json.RepeatsKey repeatingText.codes ∧ ∃ e, ∀ entrypoint expected,
      (Source.content (.text repeatingText)).load .standard (fun _ => none) entrypoint expected =
        ⟨[], .error (.rejected (.notJson repeatingText.codes e))⟩ := by
  have spare : (Json.readMarked .keepLast 992 repeatingText.codes).isOk = true := by
    decide +kernel
  have kept : (Json.readMarked .keepLast 993 repeatingText.codes).isOk = true := by
    decide +kernel
  have refused : ¬ (Json.readMarked .rejectRepeated 993 repeatingText.codes).isOk = true := by
    decide +kernel
  have leaves := Json.leavesCalls_of_json (Except.isOk_iff.mp spare)
  have repeated : Json.RepeatsKey repeatingText.codes :=
    (Json.repeatsKey_iff leaves (Except.isOk_iff.mp kept)).mpr fun accepted =>
      refused (Except.isOk_iff.mpr accepted)
  obtain ⟨e, -, always⟩ :=
    (load_text_eq_ok_iff .standard (fun _ => none) repeatingText).2 (.inr (.inl repeated))
  exact ⟨leaves, repeated, e, always⟩

/-- An object on the last level is read if keys may repeat, and refused with its text if they may
not, although there is none in it. -/
theorem load_deepText_unchecked {room : Room} {n : Nat} (fills : room.inner.brackets = n + 3)
    (files : Files) :
    (∃ d, Json.readMarked .keepLast room.inner.brackets (deepText .map n) = .ok d ∧
      (load room.inner d "main" none).outcome = .ok emptyProgram) ∧
    ¬ Json.RepeatsKey (deepText .map n) ∧
    ∃ e, ((Source.content (.text ⟨deepText .map n⟩)).load room files "main" none).outcome =
      .error (.rejected e) ∧ e.area = .malformed := by
  refine ⟨⟨deepDocument .map n, ?_, load_eq_ok_iff.mpr (deepDocument_loads .map n)⟩, ?_, ?_⟩
  · have read := readMarked_deepText
      (Json.value_emptyText_last .keepLast .map (.inr rfl)) n
    rwa [Nat.zero_add, ← fills] at read
  · have read := readMarked_deepText (fun fuel rest =>
      Json.value_emptyText .rejectRepeated .map fuel 0 rest) n
    exact (Json.readMarked_rejectRepeated_eq_ok_iff.mp read).2.1
  · have read := readMarked_deepText_error Json.value_emptyText_unchecked n
    have levels : 1 + n + 2 = room.inner.brackets := by omega
    rw [levels] at read
    exact ⟨.notJson (deepText .map n) (.tooDeep .function),
      congrArg Log.Run.outcome (load_text_of_not_json read files "main" none), rfl⟩

theorem load_lastObject :
    (∃ d, Json.readMarked .keepLast Room.standard.inner.brackets (deepText .map 990) = .ok d ∧
      (load Room.standard.inner d "main" none).outcome = .ok emptyProgram) ∧
    ¬ Json.RepeatsKey (deepText .map 990) ∧
    ∃ e, ((Source.content (.text ⟨deepText .map 990⟩)).load .standard (fun _ => none) "main"
      none).outcome = .error (.rejected e) ∧ e.area = .malformed :=
  load_deepText_unchecked (by decide) _

end Artifact

end FieldProgram

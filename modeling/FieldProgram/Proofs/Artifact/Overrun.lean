import FieldProgram.Artifact.Source
import FieldProgram.Proofs.Artifact.FirstFault
import FieldProgram.Proofs.Json.Plain
import FieldProgram.Proofs.Json.Short

/-!
# Where loading meets a limit

Every failure to load an artifact is a refusal with a fault, but for integers that are too long
where nothing catches them, and for a value at a wrong place that is nested too deeply to be shown.

* `load_limited_iff_overrunsIn`: the documents for which a limit is what fails;
* `load_content_limited_iff`: the texts and octets for which it is, and how the others end.
-/

namespace FieldProgram.Artifact

open Numeral

/-! ## Contents -/

/-- The document is short, or there is none and the content is refused with a message. -/
theorem readText_cases {read : List Code → Except Json.ReadError Document} {cs : List Code}
    (short : ∀ d, read cs = .ok d → d.Short) :
    (∃ d, readText read cs = .ok d ∧ d.Short) ∨
      ∃ e, LoadError.Worded e ∧ readText read cs = .error (.rejected e) := by
  unfold readText
  cases h : read cs with
  | ok d => exact .inl ⟨d, rfl, short d h⟩
  | error e =>
    have worded : (LoadError.notJson cs e).Worded := ⟨_, rfl⟩
    exact .inr ⟨.notJson cs e, worded, LoadError.fail_eq worded⟩

theorem document_cases (room : Room) (c : Content) :
    (∃ d, c.document room = .ok d ∧ d.Short) ∨
      ∃ e, LoadError.Worded e ∧ c.document room = .error (.rejected e) := by
  cases c with
  | text t => exact readText_cases fun _ => Json.short_of_readMarked
  | octets bs =>
    simp only [Content.document]
    cases Text.decodeSniffed bs with
    | ok cs => exact readText_cases fun _ => Json.short_of_read
    | error e =>
      have worded : (LoadError.undecodable e).Worded := ⟨_, rfl⟩
      exact .inr ⟨.undecodable e, worded, LoadError.fail_eq worded⟩

/-! ## Loading -/

theorem outcome_load_content (room : Room) (files : Files) (c : Content) (entrypoint : Text)
    (expected : Option Int) :
    ((Source.content c).load room files entrypoint expected).outcome =
      (c.document room.inner >>= fun d => (load room.inner d entrypoint expected).outcome) := by
  rw [Source.load, Log.Run.outcome_bind]
  rfl

/-- Behind stages that pass, a stage of the document meets a limit. -/
def OverrunsIn (room : Room) (d : Document) (expected : Option Int) : Prop :=
  ∃ before s after, Stage.order = before ++ s :: after ∧
    (∀ b ∈ before, b.Passes d expected) ∧ s.Overruns room d

theorem load_limited_iff_overrunsIn (room : Room) {d : Document} (short : d.Short)
    (entrypoint : Text) (expected : Option Int) :
    (∃ l, (load room d entrypoint expected).outcome = .error (.limit l)) ↔
      OverrunsIn room d expected := by
  rw [outcome_load]
  exact (read_ends room short entrypoint expected).limit_iff

theorem load_content_limited_iff (room : Room) (files : Files) (c : Content) (entrypoint : Text)
    (expected : Option Int) :
    ((∃ l, ((Source.content c).load room files entrypoint expected).outcome = .error (.limit l)) ↔
      ∃ d, c.document room.inner = .ok d ∧ OverrunsIn room.inner d expected) ∧
    ((¬ ∃ d, c.document room.inner = .ok d ∧ OverrunsIn room.inner d expected) →
      (∃ p, ((Source.content c).load room files entrypoint expected).outcome = .ok p) ∨
      ∃ e, ((Source.content c).load room files entrypoint expected).outcome =
        .error (.rejected e)) := by
  rw [outcome_load_content]
  rcases document_cases room.inner c with ⟨d, hd, short⟩ | ⟨e, -, he⟩
  · rw [hd]
    show ((∃ l, (load room.inner d entrypoint expected).outcome = .error (.limit l)) ↔ _) ∧
      (_ → (∃ p, (load room.inner d entrypoint expected).outcome = .ok p) ∨
        ∃ e, (load room.inner d entrypoint expected).outcome = .error (.rejected e))
    have same : (∃ d', (.ok d : Except LoadFailure Document) = .ok d' ∧
        OverrunsIn room.inner d' expected) ↔ OverrunsIn room.inner d expected := by simp
    rw [same, ← load_limited_iff_overrunsIn room.inner short entrypoint expected, outcome_load]
    refine ⟨Iff.rfl, fun not_limited => ?_⟩
    rcases (read_ends room.inner short entrypoint expected).ok_or_refused_or_limited with
      h | h | limited
    · exact .inl h
    · exact .inr h
    · exact absurd limited not_limited
  · rw [he]
    refine ⟨⟨?_, ?_⟩, fun _ => .inr ⟨e, rfl⟩⟩
    · rintro ⟨l, ⟨⟩⟩
    · rintro ⟨d, ⟨⟩, -⟩

/-! ## A key that is too long -/

/-- The text of an artifact behind the key of its only hints. -/
def keyedRest : List Code :=
  [':', '[', ']', '\x7d', ',', '"', 'p', 'r', 'i', 'm', 'e', '"', ':', '"', '0', 'x', '7', '"',
    ',', '"', 'd', 'a', 't', 'a', '"', ':', '[', ']', ',', '"', 'i', 'd', 'e', 'n', 't', 'i', 'f',
    'i', 'e', 'r', 's', '"', ':', '\x7b', '\x7d', ',', '"', 'r', 'e', 'f', 'e', 'r', 'e', 'n',
    'c', 'e', '_', 'm', 'a', 'n', 'a', 'g', 'e', 'r', '"', ':', '\x7b', '"', 'r', 'e', 'f', 'e',
    'r', 'e', 'n', 'c', 'e', 's', '"', ':', '[', ']', '\x7d', '\x7d'].map .char

/-- The text of the hints, from their opening brace on. -/
def keyedHints (key : List Code) : List Code :=
  .char '\x7b' :: .char '"' :: (key ++ .char '"' :: keyedRest)

def hintsName : List Code := ['h', 'i', 'n', 't', 's'].map .char

/-- The text of an artifact with no hints, listed under a key. -/
def keyedText (key : List Code) : List Code :=
  .char '\x7b' :: .char '"' :: (hintsName ++ .char '"' :: .char ':' :: keyedHints key)

def keyedDocument (key : List Code) : Document := .map [
  ("hints", .map [(⟨key⟩, .list [])]),
  ("prime", .str "0x7"),
  ("data", .list []),
  ("identifiers", .map []),
  ("reference_manager", .map [("references", .list [])])]

theorem value_keyedHints {key : List Code} (plain : ∀ c ∈ key, Json.Plain c) (fuel levels : Nat) :
    Json.value .rejectRepeated (fuel + 4) (levels + 2) (keyedHints key) =
      .ok (.map [(⟨key⟩, .list [])], keyedRest.drop 4) := by
  show Json.members .rejectRepeated (fuel + 3) (levels + 1) []
    (.char '"' :: (key ++ .char '"' :: keyedRest)) = _
  have read : Json.memberKey (.char '"' :: (key ++ .char '"' :: keyedRest)) =
      .ok (⟨key⟩, keyedRest.drop 1) := by
    show (Json.string (key ++ .char '"' :: keyedRest) >>= _) = _
    rw [Json.string_plain plain]
    rfl
  rw [Json.members, read]
  rfl

theorem value_keyedText {key : List Code} (plain : ∀ c ∈ key, Json.Plain c) (fuel levels : Nat) :
    Json.value .rejectRepeated (fuel + 30) (levels + 3) (keyedText key) =
      .ok (keyedDocument key, []) := by
  show Json.members .rejectRepeated (fuel + 29) (levels + 2) [] ((keyedText key).drop 1) = _
  have read : Json.memberKey ((keyedText key).drop 1) = .ok ("hints", keyedHints key) := by
    show (Json.string (hintsName ++ .char '"' :: .char ':' :: keyedHints key) >>= _) = _
    rw [Json.string_plain (by decide)]
    rfl
  rw [Json.members, read]
  show (Json.value .rejectRepeated (fuel + 28) (levels + 2) (keyedHints key) >>= _) = _
  rw [value_keyedHints plain (fuel + 24) levels]
  rfl

theorem read_keyedText {key : List Code} (plain : ∀ c ∈ key, Json.Plain c) (levels : Nat) :
    Json.readMarked .rejectRepeated (levels + 3) (keyedText key) = .ok (keyedDocument key) := by
  have rest : keyedRest.length = 84 := by rfl
  have name : hintsName.length = 5 := by rfl
  have length : (keyedText key).length = key.length + 96 := by
    simp only [keyedText, keyedHints, List.length_cons, List.length_append, name, rest]
    omega
  have fuel : 2 * (keyedText key).length + 2 = 2 * key.length + 164 + 30 := by omega
  show Json.read .rejectRepeated (levels + 3) (keyedText key) = _
  rw [Json.read, fuel]
  show (Json.value .rejectRepeated (2 * key.length + 164 + 30) (levels + 3) (keyedText key) >>=
    _) = _
  rw [value_keyedText plain]
  rfl

theorem keyedDocument_isArtifact (key : List Code) : IsArtifact (keyedDocument key) :=
  isArtifact_of_members rfl (.inl ⟨_, rfl⟩) rfl rfl rfl (.of_found rfl ⟨_, rfl⟩) (.of_absent rfl)
    rfl

theorem overrunsIn_keyedDocument (room : Room) {key : List Code} (long : Text.Overlong ⟨key⟩) :
    OverrunsIn room (keyedDocument key) none := by
  refine ⟨[.layout, .prime, .expected, .data, .symbols], .hints, [.references, .referenceIds], rfl,
    ?_, [], (⟨key⟩, .list []), [], rfl, ⟨by simp, .nil⟩, long⟩
  have prime : (part "prime" (keyedDocument key)).integer = .ok 7 := rfl
  have no_data : dataItems (keyedDocument key) = [] := rfl
  have no_symbols : symbolMembers (keyedDocument key) = [] := rfl
  simp only [List.forall_mem_cons, Stage.Passes, prime, no_data, no_symbols]
  refine ⟨keyedDocument_isArtifact key, ⟨7, rfl, by decide⟩, ?_, ?_, ?_, ?_⟩ <;> simp

theorem load_keyedText_limited {room : Room} (deep : 3 ≤ room.inner.brackets) {key : List Code}
    (plain : ∀ c ∈ key, Json.Plain c) (long : Text.Overlong ⟨key⟩) (files : Files)
    (entrypoint : Text) :
    ∃ l, ((Source.content (.text ⟨keyedText key⟩)).load room files entrypoint none).outcome =
      .error (.limit l) := by
  obtain ⟨levels, hlevels⟩ := Nat.exists_eq_add_of_le' deep
  have read := read_keyedText plain levels
  have document : Content.document room.inner (.text ⟨keyedText key⟩) =
      .ok (keyedDocument key) := by
    show readText (Json.readMarked _ room.inner.brackets) _ = _
    rw [readText, hlevels, read]
  have short := Json.short_of_readMarked read
  rw [outcome_load_content, document]
  exact (load_limited_iff_overrunsIn room.inner short entrypoint none).mpr
    (overrunsIn_keyedDocument room.inner long)

def overlongKey : List Code := List.replicate 4301 (.char '1')

theorem plain_overlongKey : ∀ c ∈ overlongKey, Json.Plain c := by
  intro c hc
  rw [List.eq_of_mem_replicate hc]
  decide

theorem overlong_overlongKey : Text.Overlong ⟨overlongKey⟩ := by
  have digits : (⟨overlongKey⟩ : Text).IsNumeral (List.replicate 4301 1) := by
    refine ⟨?_, ?_, ?_⟩
    · rw [Ne, List.replicate_eq_nil_iff]
      decide
    · intro d hd
      rw [List.eq_of_mem_replicate hd]
      decide
    · rw [List.map_replicate, Text.ofChars, List.map_replicate]
      rfl
  refine ⟨⟨_, _, digits, rfl⟩, ?_⟩
  rw [digits.length_codes, List.length_replicate]
  decide

theorem load_limited_of_long_key :
    ∃ l, ((Source.content (.text ⟨keyedText overlongKey⟩)).load .standard (fun _ => none)
      "main" none).outcome = .error (.limit l) :=
  load_keyedText_limited (by decide) plain_overlongKey overlong_overlongKey _ _

end FieldProgram.Artifact

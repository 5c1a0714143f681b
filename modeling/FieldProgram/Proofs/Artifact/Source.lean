import FieldProgram.Proofs.Artifact.RepeatedKey
import FieldProgram.Proofs.Text.Utf8

/-!
# One artifact from many sources

It makes no difference whether an artifact is given as a text or as its octets in UTF-8: what it
loads to and what is wrong with it is the same. Only where octets would show another encoding do
texts and octets part, and no text that loads has such octets. Nor does it make a difference whether
an artifact comes as such, through a stream or from a file, unless its brackets are nested so deep
that the reader runs out of calls: what comes through a stream or from a file is read one call
further in.

* `Source.Gives`, `Content.Writes`: how a source comes to a content, and a content to a text;
* `document_octets`: the document of octets that decode to a text;
* `load_written`: the sources of a text;
* `load_deepText`: a text that loads as it is and not through a stream.
-/

namespace FieldProgram.Artifact

open Text

/-! ## Sources and contents -/

/-- The source gives the content as such, through a stream or from a file, and the content is read
in the room that comes last. -/
inductive Source.Gives (room : Room) (files : Files) : Source → Content → Room → Prop
  | content (c : Content) : Gives room files (.content c) c room.inner
  | stream (c : Content) : Gives room files (.stream c) c room.inner.inner
  | file {path : FilePath} {bs : List UInt8} (found : files path = some (.file bs)) :
    Gives room files (.file path) (.octets bs) room.inner.inner

/-- The content is the text, or its octets in UTF-8. -/
inductive Content.Writes (cs : List Char) : Content → Prop
  | text : Writes cs (.text (ofChars cs))
  | octets : Writes cs (.octets (Utf8.encode cs))

variable {room within within' : Room} {files files' : Files} {source source' : Source}
  {c c' : Content} {cs : List Char} {bs : List UInt8} {entrypoint : Text} {expected : Option Int}
  {p : Program}

/-- What comes of a source is up to its content and to the room in which this is read. -/
theorem Source.Gives.outcome_load (gives : source.Gives room files c within) :
    (source.load room files entrypoint expected).outcome =
      (c.document within >>= fun d =>
        (Artifact.load room.inner d entrypoint expected).outcome) := by
  cases gives with
  | content c => exact outcome_load_content room files c entrypoint expected
  | stream c =>
    rw [Source.load, Log.Run.outcome_bind, Source.document, Log.Run.outcome_bind]
    rfl
  | file found =>
    rw [Source.load, Log.Run.outcome_bind, Source.document, found]
    dsimp only
    rw [Log.Run.outcome_bind]
    rfl

/-- No source is read with fewer brackets than a stream. -/
theorem Source.Gives.brackets_le (gives : source.Gives room files c within) :
    room.inner.inner.brackets ≤ within.brackets := by
  cases gives with
  | content c =>
    rw [room.inner.brackets_inner]
    exact Nat.sub_le _ _
  | stream c => exact Nat.le_refl _
  | file found => exact Nat.le_refl _

/-! ## Documents of octets -/

theorem readMarked_of_unmarked {policy : Json.KeyPolicy} {levels : Nat}
    (unmarked : cs.head? ≠ some '\ufeff') :
    Json.readMarked policy levels (cs.map .char) = Json.read policy levels (cs.map .char) := by
  unfold Json.readMarked
  split
  · rename_i r marked
    cases cs with
    | nil => cases marked
    | cons c cs =>
      obtain rfl := Code.char.inj (List.cons.inj marked).1
      exact absurd rfl unmarked
  · rfl

theorem document_octets (unmarked : cs.head? ≠ some '\ufeff')
    (decoded : decodeSniffed bs = .ok (cs.map .char)) :
    Content.document within (.octets bs) = Content.document within (.text (ofChars cs)) := by
  simp only [Content.document, decoded]
  show _ = readText (Json.readMarked _ within.brackets) (cs.map .char)
  rw [readText, readText, readMarked_of_unmarked unmarked]

theorem Content.Writes.document (unmarked : cs.head? ≠ some '\ufeff')
    (no_null : '\x00' ∉ cs.take 4) (written : c.Writes cs) :
    c.document within = Content.document within (.text (ofChars cs)) := by
  cases written with
  | text => rfl
  | octets => exact document_octets unmarked (decodeSniffed_encode unmarked no_null)

/-- A text with a document has no mark in front and no nulls. -/
theorem plain_of_document {d : Document}
    (document : Content.document within (.text (ofChars cs)) = .ok d) :
    cs.head? ≠ some '\ufeff' ∧ '\x00' ∉ cs := by
  obtain ⟨tree, spelled, -⟩ := Json.readMarked_eq_ok_iff.mp (readText_eq_ok_iff.mp document)
  constructor
  · intro marked
    obtain ⟨r, rfl⟩ := List.head?_eq_some_iff.mp marked
    exact Json.not_spellsText_of_mark spelled
  · intro null
    exact absurd (spelled.stands _ (List.mem_map_of_mem null)) (by decide)

/-! ## Documents in more room -/

/-- The text is read without running out of calls. -/
def ReadIn (room : Room) (cs : List Char) : Prop :=
  ¬ Json.CutShort (Json.readMarked .rejectRepeated room.brackets (cs.map .char))

theorem document_text_stays (le : within.brackets ≤ within'.brackets) (uncut : ReadIn within cs) :
    Content.document within' (.text (ofChars cs)) =
      Content.document within (.text (ofChars cs)) := by
  show readText (Json.readMarked _ within'.brackets) (cs.map .char) =
    readText (Json.readMarked _ within.brackets) (cs.map .char)
  rw [readText, readText, Json.readMarked_stays .rejectRepeated le uncut]

theorem readIn_of_document {d : Document}
    (document : Content.document within (.text (ofChars cs)) = .ok d) : ReadIn within cs := by
  have read : Json.readMarked .rejectRepeated within.brackets (cs.map .char) = .ok d :=
    readText_eq_ok_iff.mp document
  rw [ReadIn, read]
  exact Json.not_cutShort_ok d

/-! ## Loading -/

/-- Sources of one text have one outcome if they are read in the same room, or if the text does not
need the call that streams and files take away. What loads as a text loads from its octets, too. -/
theorem load_written (room : Room) (cs : List Char) (entrypoint : Text) (expected : Option Int) :
    (cs.head? ≠ some '\ufeff' → '\x00' ∉ cs.take 4 →
      ∀ {files files' source source' c c' within within'},
        Source.Gives room files source c within → c.Writes cs →
        Source.Gives room files' source' c' within' → c'.Writes cs →
        within = within' ∨ ReadIn room.inner.inner cs →
          (source.load room files entrypoint expected).outcome =
            (source'.load room files' entrypoint expected).outcome) ∧
    ∀ {files files' source source' bs p within within'},
      Source.Gives room files source (.text (ofChars cs)) within →
      (source.load room files entrypoint expected).outcome = .ok p →
        bs = Utf8.encode cs ∨ bs = markOctets ++ Utf8.encode cs →
          Source.Gives room files' source' (.octets bs) within' →
            within.brackets ≤ within'.brackets →
              (source'.load room files' entrypoint expected).outcome = .ok p := by
  constructor
  · intro unmarked no_null files files' source source' c c' within within' gives written gives'
      written' same
    rw [gives.outcome_load, gives'.outcome_load, written.document unmarked no_null,
      written'.document unmarked no_null]
    rcases same with rfl | uncut
    · rfl
    · rw [document_text_stays gives.brackets_le uncut, document_text_stays gives'.brackets_le uncut]
  · intro files files' source source' bs p within within' gives loaded octets gives' le
    rw [gives.outcome_load] at loaded
    have ⟨d, document, _⟩ := Except.bind_eq_ok.mp loaded
    obtain ⟨unmarked, no_null⟩ := plain_of_document document
    have decoded : decodeSniffed bs = .ok (cs.map .char) := by
      rcases octets with rfl | rfl
      · exact decodeSniffed_encode unmarked fun null => no_null (List.mem_of_mem_take null)
      · exact decodeSniffed_mark cs
    rw [gives'.outcome_load, document_octets unmarked decoded,
      document_text_stays le (readIn_of_document document)]
    exact loaded

/-- An artifact whose only symbol is not in ASCII. -/
def accentedText : String :=
  "\x7b\"prime\":\"0x7\",\"data\":[],\"identifiers\":\x7b\"__main__.é\":\x7b\"pc\":3\x7d\x7d," ++
    "\"reference_manager\":\x7b\"references\":[]\x7d\x7d"

/-- A file that holds the artifact behind a byte order mark. -/
def accentedFiles : Files :=
  Files.ofList [(FilePath.ofString "a.json",
    .file (markOctets ++ Utf8.encode accentedText.toList))]

theorem load_accentedText : ∃ p : Program, p.main = some 3 ∧
    ((Source.content (.text accentedText)).load .standard accentedFiles "é" none).outcome =
      .ok p ∧
    ((Source.stream (.octets (Utf8.encode accentedText.toList))).load .standard accentedFiles "é"
      none).outcome = .ok p ∧
    ((Source.file (FilePath.ofString "a.json")).load .standard accentedFiles "é" none).outcome =
      .ok p := by
  have main : ((Source.content (.text accentedText)).load .standard accentedFiles "é"
      none).outcome.toOption.map Program.main = some (some 3) := by decide +kernel
  obtain ⟨p, found, three⟩ := Option.map_eq_some_iff.mp main
  have loaded := Except.toOption_eq_some_iff.mp found
  have given : Source.Gives .standard accentedFiles (.content (.text accentedText))
      (.text accentedText) Room.standard.inner := .content _
  have read : (Json.readMarked .rejectRepeated Room.standard.inner.inner.brackets
      (accentedText.toList.map .char)).isOk = true := by decide +kernel
  obtain ⟨d, hd⟩ := Except.isOk_iff.mp read
  have uncut : ReadIn Room.standard.inner.inner accentedText.toList := by
    rw [ReadIn, hd]
    exact Json.not_cutShort_ok d
  obtain ⟨same, again⟩ := load_written .standard accentedText.toList "é" none
  have elsewhere {source c} (gives : Source.Gives .standard accentedFiles source c
      Room.standard.inner.inner) (written : c.Writes accentedText.toList) :
      (source.load .standard accentedFiles "é" none).outcome = .ok p :=
    (same (by decide) (by decide) gives written given .text (.inr uncut)).trans loaded
  have streamed := elsewhere (.stream _) .text
  exact ⟨p, three, loaded, elsewhere (.stream _) .octets,
    again (.stream _) streamed (.inr rfl) (.file rfl) (Nat.le_refl _)⟩

/-! ## A text that is too deep for a stream -/

/-- Lists that fill the room of a text leave none for a stream. -/
theorem load_deepText_apart {room : Room} {n : Nat} (fills : room.inner.brackets = n + 3)
    (files : Files) :
    ((Source.content (.text ⟨deepText .list n⟩)).load room files "main" none).outcome =
        .ok emptyProgram ∧
      ∃ e, ((Source.stream (.text ⟨deepText .list n⟩)).load room files "main" none).outcome =
        .error (.rejected e) ∧ e.area = .malformed := by
  constructor
  · have read := readMarked_deepText
      (Json.value_emptyText_last .rejectRepeated .list (.inl rfl)) n
    rw [Nat.zero_add, ← fills] at read
    rw [(Source.Gives.content (.text ⟨deepText .list n⟩)).outcome_load]
    exact Except.bind_eq_ok.mpr
      ⟨_, readText_eq_ok_iff.mpr read, load_eq_ok_iff.mpr (deepDocument_loads .list n)⟩
  · have read := readMarked_deepText_error (Json.value_emptyText_deep .rejectRepeated .list) n
    have less : room.inner.inner.brackets = 0 + n + 2 := by
      rw [Room.brackets_inner, fills]
      omega
    refine ⟨.notJson (deepText .list n) (.tooDeep (.opening .list)), ?_, rfl⟩
    rw [(Source.Gives.stream (.text ⟨deepText .list n⟩)).outcome_load]
    show (readText (Json.readMarked _ room.inner.inner.brackets) (deepText .list n) >>= _) = _
    rw [readText, less, read]
    rfl

theorem load_deepText :
    ((Source.content (.text ⟨deepText .list 990⟩)).load .standard (fun _ => none) "main"
      none).outcome = .ok emptyProgram ∧
    ∃ e, ((Source.stream (.text ⟨deepText .list 990⟩)).load .standard (fun _ => none) "main"
      none).outcome = .error (.rejected e) ∧ e.area = .malformed :=
  load_deepText_apart (by decide) _

end FieldProgram.Artifact

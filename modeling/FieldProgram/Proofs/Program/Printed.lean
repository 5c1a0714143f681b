import FieldProgram.Proofs.Artifact.RepeatedKey
import FieldProgram.Proofs.Json.Ascii
import FieldProgram.Proofs.Program.Agree

/-!
# Loading what was printed

The artifact of a loaded program, printed and read again, is the same artifact but for the surrogate
pairs that are split in its texts. So the program comes back exactly when none is.

* `Program.fitsIn_artifact`: an artifact is six brackets deep at most;
* `Artifact.load_text_of_spelled`: what a text loads to, given its tree;
* `Artifact.Loads.reload_printed_iff`, `Artifact.Loads.reload_printed`: the program comes back.
-/

namespace FieldProgram

open Numeral

/-! ## Texts -/

theorem unsplitCodes_ofChars (cs : List Char) : UnsplitCodes (cs.map .char) := by
  induction cs with
  | nil => trivial
  | cons c cs ih => exact unsplitCodes_cons ih fun high => by cases high

theorem Text.unsplit_ofString (s : String) : (s : Text).Unsplit := unsplitCodes_ofChars s.toList

/-- Nowhere in the texts of the program do the two halves of a surrogate pair stand together. -/
def Program.Unsplit (p : Program) : Prop := p.Every (fun _ => True) Text.Unsplit

theorem Program.Unsplit.joined_artifact {p : Program} (h : p.Unsplit) :
    p.artifact.joined = p.artifact := by
  have every := (Program.every_artifact Text.unsplit_ofString).mpr ⟨h, by simp⟩
  exact p.artifact.joined_of_unsplit every

/-! ## Depth -/

section Depth

variable {levels : Nat}

theorem ApTracking.fitsIn_encode (t : ApTracking) : t.encode.FitsIn (levels + 1) := by
  simp [encode]

theorem Hint.fitsIn_encode (h : Hint) : h.encode.FitsIn (levels + 3) := by
  simp only [encode, Document.fitsIn_map, Document.fitsIn_list, List.forall_mem_cons,
    List.forall_mem_map, h.apTracking.fitsIn_encode, Document.fitsIn_str, Document.fitsIn_int,
    List.not_mem_nil, false_imp_iff, implies_true, and_self]

theorem Identifier.fitsIn_encode (i : Identifier) : i.encode.FitsIn (levels + 1) := by
  obtain ⟨pc, type, value⟩ := i
  cases pc <;> cases type <;> cases value <;> simp [encode, present]

theorem Reference.fitsIn_encode (r : Reference) : r.encode.FitsIn (levels + 2) := by
  obtain ⟨value, tracking, pc, name⟩ := r
  cases pc <;> cases name <;>
    simp [encode, unnamedMembers, nameMember, tracking.fitsIn_encode]

theorem Word.fitsIn_encode (w : Word) : w.encode.FitsIn (levels + 1) := by
  cases w <;> simp [encode]

/-- The deepest bracket is around the allocation pointer of a hint. -/
theorem Program.fitsIn_artifact (p : Program) : p.artifact.FitsIn 6 := by
  simp only [artifact, hintMembers, ReferenceTable.encode, Document.fitsIn_map,
    Document.fitsIn_list, List.forall_mem_cons, List.forall_mem_map, Hint.fitsIn_encode,
    Identifier.fitsIn_encode, Reference.fitsIn_encode, Word.fitsIn_encode, Document.fitsIn_str,
    List.not_mem_nil, false_imp_iff, implies_true, and_self]

end Depth

/-! ## Documents of sources -/

namespace Artifact

variable {room : Room}

theorem Content.keysDistinct_of_document {c : Content} {d : Document}
    (h : c.document room = .ok d) : d.KeysDistinct := by
  cases c with
  | text t =>
    obtain ⟨tree, -, settled⟩ := Json.readMarked_eq_ok_iff.mp (readText_eq_ok_iff.mp h)
    obtain ⟨distinct, -, rfl⟩ := Json.settle_rejectRepeated_eq_ok_iff.mp settled
    exact distinct
  | octets bs =>
    simp only [Content.document] at h
    split at h
    · obtain ⟨tree, -, settled⟩ := Json.read_eq_ok_iff.mp (readText_eq_ok_iff.mp h)
      obtain ⟨distinct, -, rfl⟩ := Json.settle_rejectRepeated_eq_ok_iff.mp settled
      exact distinct
    · exact absurd h (LoadError.fail_ne_ok _ _)

theorem Content.short_of_document {c : Content} {d : Document} (h : c.document room = .ok d) :
    d.Short := by
  rcases document_cases room c with ⟨d', h', short⟩ | ⟨e, -, refused⟩
  · rwa [Except.ok.inj (h.symm.trans h')]
  · cases h.symm.trans refused

/-- Content without a document is refused with a message. -/
theorem Content.refused_of_document {c : Content} {f : LoadFailure}
    (h : c.document room = .error f) : ∃ e, LoadError.Worded e ∧ f = .rejected e := by
  rcases document_cases room c with ⟨d, document, -⟩ | ⟨e, worded, refused⟩
  · cases h.symm.trans document
  · exact ⟨e, worded, Except.error.inj (h.symm.trans refused)⟩

theorem document_file_eq_ok_iff {files : Files} {path : FilePath} {d : Document} :
    ((Source.file path).document room files).outcome = .ok d ↔
      ∃ octets, files path = some (.file octets) ∧
        (Content.octets octets).document room.inner.inner = .ok d := by
  unfold Source.document
  dsimp only
  cases files path with
  | none => simp [Log.Run.ofExcept, LoadError.fail_ne_ok]
  | some entry =>
    rw [Log.Run.outcome_bind]
    cases entry with
    | folder =>
      show (LoadError.isDirectory path.text).fail = .ok d ↔ _
      simp [LoadError.fail_ne_ok]
    | file octets =>
      show (Content.octets octets).document room.inner.inner = .ok d ↔ _
      simp

theorem load_file_eq_ok_iff {files : Files} {path : FilePath} {entrypoint : Text}
    {expected : Option Int} {p : Program} :
    ((Source.file path).load room files entrypoint expected).outcome = .ok p ↔
      ∃ octets, files path = some (.file octets) ∧
        ∃ d, (Content.octets octets).document room.inner.inner = .ok d ∧
          Loads d entrypoint expected p := by
  rw [Source.load, Log.Run.outcome_bind, Except.bind_eq_ok]
  simp only [document_file_eq_ok_iff, load_eq_ok_iff]
  constructor
  · rintro ⟨d, ⟨octets, found, document⟩, loads⟩
    exact ⟨octets, found, d, document, loads⟩
  · rintro ⟨octets, found, d, document, loads⟩
    exact ⟨d, ⟨octets, found, document⟩, loads⟩

/-- The octets of what is printed of a document, nothing if that fails. -/
def printedOctets (d : Document) : List UInt8 :=
  match Json.write .indented d with
  | .ok s => Text.Utf8.encode (s.toList ++ ['\n'])
  | .error _ => []

/-- A short document without floats and split pairs is read back from a file that it was printed
to, with a level to spare. -/
theorem document_printedOctets {d : Document} {levels : Nat} (short : d.Short)
    (fits : d.FitsIn levels) (spare : levels < room.brackets) (distinct : d.KeysDistinct)
    (unsplit : d.Every (fun _ => True) Text.Unsplit) :
    (Content.octets (printedOctets d)).document room = .ok d := by
  obtain ⟨s, hs⟩ := (Json.failsUnless_write .indented d).exists_ok_iff.mpr short
  have spelled := Json.spellsText_write fits hs
  rw [d.joined_of_unsplit unsplit] at spelled
  obtain ⟨spelled, closes⟩ := spelled.spare spare
  rw [printedOctets, hs]
  simp only [Content.document, Json.decodeSniffed_write fits hs]
  have settled := Json.settle_rejectRepeated_eq_ok_iff.mpr ⟨distinct, closes, rfl⟩
  exact readText_eq_ok_iff.mpr (Json.read_eq_ok_iff.mpr ⟨d, spelled, settled⟩)

/-! ## Loading again -/

section Again

variable {levels : Nat}

theorem document_text_of_spelled {t : Text} {d d' : Document}
    (spelled : Json.SpellsText levels t.codes d) (spare : levels < room.brackets) :
    Content.document room (.text t) = .ok d' ↔ d.KeysDistinct ∧ d' = d := by
  obtain ⟨spelled, closes⟩ := spelled.spare spare
  rw [document_text_eq_ok_iff, ← Json.readMarked_rejectRepeated_eq_ok_iff,
    Json.readMarked_eq_ok_iff]
  simp only [Json.settle_rejectRepeated_eq_ok_iff]
  constructor
  · rintro ⟨tree, spelled', distinct, -, rfl⟩
    rw [spelled'.unique spelled] at distinct ⊢
    exact ⟨distinct, rfl⟩
  · rintro ⟨distinct, rfl⟩
    exact ⟨d', spelled, distinct, closes, rfl⟩

theorem load_text_of_spelled {t : Text} {d : Document}
    (spelled : Json.SpellsText levels t.codes d) (spare : levels < room.inner.brackets)
    (files : Files) (entrypoint : Text) (expected : Option Int) {p : Program} :
    ((Source.content (.text t)).load room files entrypoint expected).outcome = .ok p ↔
      d.KeysDistinct ∧ Loads d entrypoint expected p := by
  rw [outcome_load_content, Except.bind_eq_ok]
  simp only [document_text_of_spelled spelled spare, load_eq_ok_iff]
  constructor
  · rintro ⟨_, ⟨distinct, rfl⟩, loads⟩
    exact ⟨distinct, loads⟩
  · rintro ⟨distinct, loads⟩
    exact ⟨d, ⟨distinct, rfl⟩, loads⟩

end Again

section Printed

variable {d : Document} {entrypoint : Text} {expected : Option Int} {p : Program}
  (h : Loads d entrypoint expected p) (distinct : d.KeysDistinct) {l : Json.Layout} {s : String}
  (printed : Json.write l p.artifact = .ok s) (spare : 6 < room.inner.brackets) (files : Files)

include h distinct printed spare

theorem Loads.reload_printed (unsplit : p.Unsplit) :
    ((Source.content (.text (s ++ ("\n" : Text)))).load room files entrypoint none).outcome =
      .ok p := by
  have spelled := Json.spellsText_write p.fitsIn_artifact printed
  rw [unsplit.joined_artifact] at spelled
  exact (load_text_of_spelled spelled spare ..).mpr ⟨h.keysDistinct_artifact distinct, h.reload⟩

theorem Loads.reload_printed_iff :
    (∃ q, ((Source.content (.text (s ++ ("\n" : Text)))).load room files entrypoint
      none).outcome = .ok q ∧ p.agree q = true) ↔ p.Unsplit := by
  constructor
  · rintro ⟨q, loaded, agree⟩
    have spelled := Json.spellsText_write p.fitsIn_artifact printed
    obtain ⟨-, loads⟩ := (load_text_of_spelled spelled spare ..).mp loaded
    exact (loads.every p.artifact.every_joined).of_agree agree
  · intro unsplit
    exact ⟨p, h.reload_printed distinct printed spare files unsplit,
      Program.agree_self h.hints.distinct (h.namesDistinct distinct)⟩

end Printed

end Artifact

end FieldProgram

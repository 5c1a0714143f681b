import FieldProgram.Proofs.Program.WellFormed

/-!
# Loading what was written

A loaded program can be written, and what is written loads again, for any entry point, to the
program that the first document has for that entry point.

* `Program.encode_eq`: the artifact of a program whose program counters are short;
* `Artifact.Loads.reload`: each section of that artifact describes the program again;
* `Artifact.load_encode`: loading undoes writing on loaded programs.
-/

namespace FieldProgram

open Numeral

/-! ## The artifact of a program -/

namespace Program

/-- The members for the hints of a program with short program counters. -/
def hintMembers (p : Program) : List (Text × Document) :=
  p.hints.map fun (pc, hs) => (shortDecimal pc, .list (hs.map Hint.encode))

/-- The artifact of a program with short program counters. -/
def artifact (p : Program) : Document :=
  .map [
    ("prime", .str (hexText p.prime)),
    ("builtins", .list (p.builtins.map .str)),
    ("data", .list (p.data.map Word.encode)),
    ("identifiers", .map (p.identifiers.map fun (name, i) => (name, i.encode))),
    ("hints", .map p.hintMembers),
    ("reference_manager", p.references.encode)]

theorem encode_eq {p : Program} (short : ∀ entry ∈ p.hints, Document.ShortInteger entry.1) :
    p.encode = .ok p.artifact := by
  have members : p.hints.mapM encodeHints = .ok p.hintMembers := by
    rw [Except.mapM_eq_ok_iff, hintMembers, List.forall₂_map_right_iff, List.forall₂_same]
    intro entry hentry
    have text := decimalText_eq_ok_iff.mpr ⟨short entry hentry, rfl⟩
    exact Except.bind_eq_ok.mpr ⟨_, text, rfl⟩
  exact Except.bind_eq_ok.mpr ⟨_, members, rfl⟩

end Program

/-! ## Written records describe what was written -/

theorem ApTracking.WellFormed.describedBy_encode {t : ApTracking} (h : t.WellFormed) :
    t.DescribedBy t.encode :=
  ⟨_, rfl, ⟨_, rfl, rfl, h.group⟩, _, rfl, rfl, h.offset⟩

theorem Hint.WellFormed.describedBy_encode {count : Nat} {h : Hint} (wf : h.WellFormed count) :
    h.DescribedBy h.encode := by
  refine ⟨_, rfl, rfl, .inr rfl, _, rfl, ⟨_, rfl, wf.tracking.describedBy_encode⟩, .inr ⟨rfl, ?_⟩⟩
  exact fun id hid => (wf.named id hid).1

theorem Reference.WellFormed.describedBy_encode {r : Reference} (wf : r.WellFormed) :
    r.DescribedBy r.encode := by
  obtain ⟨value, tracking, pc, name⟩ := r
  refine ⟨_, rfl, ⟨_, rfl, wf.tracking.describedBy_encode⟩, ?_, rfl, ?_⟩
  · cases pc with
    | none => exact .inr rfl
    | some n => exact ⟨_, rfl, rfl, wf.pc n rfl⟩
  · cases name with
    | none => exact .inl rfl
    | some t => exact ⟨_, rfl, rfl⟩

namespace Artifact

theorem present_chars {name : String} {o : Option Document} :
    ∀ m ∈ Identifier.present name o, m.1.chars? ≠ none := by
  cases o <;> simp [Identifier.present, Text.ofString]

theorem symbolDescribedBy_encode {prime : Int} {i : Identifier} (wf : i.WellFormed prime) :
    SymbolDescribedBy prime i i.encode := by
  obtain ⟨pc, type, value⟩ := i
  refine ⟨⟨pc, type, value.map fun f => (f.value : Int)⟩, ⟨_, rfl, ?_, ?_, ?_, ?_⟩, rfl, rfl, ?_⟩
  · intro m hm
    rcases List.mem_append.mp hm with hm | hm
    · rcases List.mem_append.mp hm with hm | hm
      · exact present_chars m hm
      · exact present_chars m hm
    · exact present_chars m hm
  · cases pc with
    | some n => exact ⟨_, rfl, rfl, wf.pc n rfl⟩
    | none => cases type <;> cases value <;> exact .inl rfl
  · cases type with
    | some t => cases pc <;> exact ⟨_, rfl, rfl⟩
    | none => cases pc <;> cases value <;> exact .inl rfl
  · cases value with
    | some f => cases pc <;> cases type <;> exact ⟨_, rfl, rfl⟩
    | none => cases pc <;> cases type <;> exact .inl rfl
  · cases value with
    | none => exact .none
    | some f =>
      obtain ⟨rfl, -⟩ := wf.value f rfl
      exact .some f.represents_value

/-! ## Hints -/

theorem length_shortDecimal {n : Int} (nonneg : 0 ≤ n) (short : Document.ShortInteger n) :
    (shortDecimal n : Text).codes.length ≤ maxDigits := by
  have unsigned : ¬ n < 0 := by omega
  have same : (shortDecimal n : Text).codes.length = (decimalDigits n.natAbs).length := by
    simp [shortDecimal, unsigned, Text.ofString, Text.ofChars]
  rw [same]
  exact short

theorem hintsHeldBy_hintMembers {p : Program} (wf : p.WellFormed)
    (short : ∀ entry ∈ p.hints, Document.ShortInteger entry.1) :
    HintsHeldBy p.hintMembers p.hints := by
  refine ⟨p.hints, ?_, wf.distinct, ?_⟩
  · rw [Program.hintMembers, List.forall₂_map_left_iff, List.forall₂_same]
    intro entry hentry
    obtain ⟨nonneg, -, hints⟩ := wf.hints entry hentry
    refine ⟨Text.denotes_shortDecimal nonneg, length_shortDecimal nonneg (short entry hentry), _,
      rfl, ?_⟩
    rw [List.forall₂_map_left_iff, List.forall₂_same]
    exact fun hint hmem => (hints hint hmem).describedBy_encode
  · refine (List.filter_eq_self.mpr fun entry hentry => ?_).symm
    simp [(wf.hints entry hentry).2.1]

/-! ## References -/

/-- A reference that has no name although hints may name it is named by none of them. So a
reference keeps the name it has, whether it is its own or from a hint. -/
theorem NamedBy.encode {names : List (Int × Text)} {item : Document × Nat} {r : Reference}
    (h : NamedBy names item r) : NamedBy names (r.encode, item.2) r := by
  refine ⟨r, h.wellFormed.describedBy_encode, ?_⟩
  obtain ⟨own, -, rfl⟩ := h
  cases hname : own.name <;> simp [Reference.named, hname]

theorem namedBy_encode {names : List (Int × Text)} {ds : List Document} {rs : List Reference}
    {start : Nat} (h : List.Forall₂ (NamedBy names) (ds.zipIdx start) rs) :
    List.Forall₂ (NamedBy names) ((rs.map Reference.encode).zipIdx start) rs := by
  induction ds generalizing start rs with
  | nil =>
    cases h
    exact .nil
  | cons d ds ih =>
    rw [List.zipIdx_cons] at h
    cases h with
    | cons first rest => exact .cons first.encode (ih rest)

/-! ## Programs -/

theorem artifact_isArtifact (p : Program) : IsArtifact p.artifact := by
  refine isArtifact_of_members rfl (.inl ⟨_, rfl⟩) rfl rfl rfl (.of_found rfl ⟨_, rfl⟩)
    (.of_found rfl ⟨_, rfl, fun x hx => ?_⟩) rfl
  obtain ⟨t, -, rfl⟩ := List.mem_map.mp hx
  exact ⟨t, rfl⟩

/-- The entry point matters for nothing but where the program starts. -/
theorem Loads.enter {d : Document} {entrypoint : Text} {expected : Option Int} {p : Program}
    (h : Loads d entrypoint expected p) (entrypoint' : Text) :
    Loads d entrypoint' none { p with main := entryPc? p.identifiers entrypoint' } where
  layout := h.layout
  prime := h.prime
  one_lt := h.one_lt
  expected := by simp
  data := h.data
  symbols := h.symbols
  hints := h.hints
  references := h.references
  named := h.named
  builtins := h.builtins
  main := rfl

theorem Loads.reload {d : Document} {entrypoint : Text} {expected : Option Int} {p : Program}
    (h : Loads d entrypoint expected p) : Loads p.artifact entrypoint none p where
  layout := artifact_isArtifact p
  prime := integerOfText_hexText p.prime
  one_lt := h.one_lt
  expected := by simp
  data := by
    show List.Forall₂ _ (p.data.map Word.encode) p.data
    rw [List.forall₂_map_left_iff, List.forall₂_same]
    exact fun w hw => Word.describedBy_encode (h.wellFormed.data w hw)
  symbols := by
    show List.Forall₂ _ (p.identifiers.map fun (name, i) => (name, i.encode)) p.identifiers
    rw [List.forall₂_map_left_iff, List.forall₂_same]
    exact fun i hi => ⟨rfl, symbolDescribedBy_encode (h.wellFormed.symbols i hi)⟩
  hints := hintsHeldBy_hintMembers h.wellFormed h.hints.short
  references := namedBy_encode h.references
  named := h.named
  builtins := by
    show p.builtins = (p.builtins.map Document.str).filterMap text?
    rw [List.filterMap_map]
    exact (List.filterMap_some).symm
  main := h.main

theorem load_encode {room : Room} {d : Document} {entrypoint : Text} {expected : Option Int}
    {p : Program} (h : (load room d entrypoint expected).outcome = .ok p) :
    ∃ doc, p.encode = .ok doc ∧ ∀ room' entrypoint', ∃ q,
      (load room' doc entrypoint' none).outcome = .ok q ∧
      (load room' d entrypoint' none).outcome = .ok q ∧ q.encode = .ok doc ∧
      q.references = p.references := by
  have loads := load_eq_ok_iff.mp h
  refine ⟨p.artifact, Program.encode_eq loads.hints.short, fun room' entrypoint' => ?_⟩
  have entered := loads.enter entrypoint'
  refine ⟨_, load_eq_ok_iff.mpr entered.reload, load_eq_ok_iff.mpr entered, ?_, rfl⟩
  exact Program.encode_eq entered.hints.short

theorem load_encode_sample :
    (load .standard sample "main" none).outcome = .ok sampleProgram ∧
      ∃ doc, sampleProgram.encode = .ok doc ∧
        ∃ q, (load .standard doc "start" none).outcome = .ok q ∧
          q.references.references.map Reference.name = [some ("x" : Text)] := by
  have loaded : (load .standard sample "main" none).outcome = .ok sampleProgram :=
    load_eq_ok_iff.mpr sample_loads
  obtain ⟨doc, written, again⟩ := load_encode loaded
  obtain ⟨q, reloaded, -, -, same⟩ := again .standard "start"
  exact ⟨loaded, doc, written, q, reloaded, by rw [same]; rfl⟩

end Artifact

end FieldProgram

import FieldProgram.Proofs.Artifact.Stages

/-!
# The first stage at fault

Each stage of loading does what it asks for, so that loading ends as its stages say.

* `read_ends`: one step for each stage;
* `load_ok_iff_and_first_stuck`: which documents load, whose fault it is if one does not, and when
  there is no room to say so.
-/

namespace FieldProgram.Artifact

open Numeral

/-! ## Layout and prime -/

theorem worded_violations {d : Document} (short : d.Short) :
    ∀ x ∈ violations d, x.breach.Worded := by
  intro x hx
  exact Schema.violations_worded [] d short layout x ((List.mergeSort_perm _ _).mem_iff.mp hx)

/-- The report on a layout has a message where there is room for the values at its places. -/
theorem failsUnless_layout (room : Room) {first : Violation Document}
    {rest : List (Violation Document)} (worded : ∀ x ∈ first :: rest, x.breach.Worded) :
    Except.FailsUnless (∀ x ∈ first :: rest, x.Fits room) .nesting
      (LoadError.layout room first rest).message :=
  LoadError.failsUnless_message
    ((Violation.failsUnless_report room "Artifact validation failed:" worded).map Text.ofString)
    ⟨_, rfl⟩

/-- A short document is in order, refused, or too deeply nested to be refused with a message. -/
theorem checkLayout_cases (room : Room) {d : Document} (short : d.Short) :
    (IsArtifact d ∧ checkLayout room d = .ok ()) ∨
    (¬ IsArtifact d ∧ (∀ v ∈ violations d, v.Fits room) ∧
      ∃ e, LoadError.Worded e ∧ e.area = .malformed ∧
        checkLayout room d = .error (.rejected e)) ∨
    (¬ IsArtifact d ∧ (∃ v ∈ violations d, ¬ v.Fits room) ∧
      checkLayout room d = .error (.limit .nesting)) := by
  have worded := worded_violations short
  rw [← violations_eq_nil_iff, checkLayout]
  cases broken : violations d with
  | nil => exact .inl ⟨rfl, rfl⟩
  | cons first rest =>
    rw [broken] at worded
    rcases LoadError.fail_cases (failsUnless_layout room worded) with
      ⟨fits, worded, refused⟩ | ⟨deep, limit⟩
    · exact .inr (.inl ⟨by simp, fits, _, worded, rfl, refused⟩)
    · refine .inr (.inr ⟨by simp, ?_, limit⟩)
      simpa only [not_forall, exists_prop] using deep

theorem checkLayout_settles (room : Room) {d : Document} (short : d.Short) :
    Settles (IsArtifact d) (∃ v ∈ violations d, ¬ v.Fits room) .malformed
      (checkLayout room d) := by
  rcases checkLayout_cases room short with
    ⟨layout, passed⟩ | ⟨broken, fits, e, -, malformed, refused⟩ | ⟨-, deep, limit⟩
  · rw [passed]
    refine .accepted () layout ?_
    rw [violations_eq_nil_iff.mpr layout]
    simp
  · rw [refused]
    exact .rejected e malformed broken fun ⟨v, hv, unfit⟩ => unfit (fits v hv)
  · rw [limit]
    exact .limited _ deep

theorem checkPrime_settles {v : Document} {p : Int} (hp : v.integer = .ok p)
    (expected : Option Int) :
    Settles (∀ q, expected = some q → v.integer = .ok q) False .primeMismatch
      (checkPrime p expected) := by
  refine .of_refuses ?_ (checkPrime_refuses p expected)
  have accepts : (∃ a, checkPrime p expected = .ok a) ↔ ∀ q, expected = some q → q = p := by
    rw [← checkPrime_eq_ok_iff]
    exact ⟨fun ⟨(), h⟩ => h, fun h => ⟨(), h⟩⟩
  rw [accepts]
  refine forall₂_congr fun q _ => ?_
  rw [hp, Except.ok.injEq]
  exact eq_comm

/-! ## Data and symbols -/

theorem exists_word_iff {p : Int} (one_lt : 1 < p) {v : Document} :
    (∃ w : Word, w.DescribedBy p v) ↔ IsWord v := by
  constructor
  · rintro ⟨w, h⟩
    cases w with
    | felt f =>
      obtain ⟨n, hn, -⟩ := h
      exact .inl ⟨n, hn⟩
    | relocatable r =>
      obtain ⟨ms, rfl, h⟩ := h
      exact .inr ⟨ms, r, rfl, h⟩
  · rintro (⟨n, hn⟩ | ⟨ms, r, rfl, h⟩)
    · obtain ⟨f, hf⟩ := Felt.exists_represents one_lt n
      exact ⟨.felt f, n, hn, hf⟩
    · exact ⟨.relocatable r, ms, rfl, h⟩

theorem words_settles {p : Int} (one_lt : 1 < p) (d : Document) :
    Settles (∀ v ∈ dataItems d, IsWord v) False .malformed (words p (part "data" d)) := by
  refine .of_refuses ?_ (words_refuses p _)
  simp only [words_eq_ok_iff one_lt, exists_forall₂_iff, exists_word_iff one_lt]
  rfl

theorem identifiers_settles {p : Int} (one_lt : 1 < p) (d : Document) :
    Settles (∀ m ∈ symbolMembers d, ∃ r : IdentifierRecord, r.DescribedBy m.2) False .identifier
      (identifiers p (part "identifiers" d)) := by
  refine .of_refuses ?_ (identifiers_refuses one_lt _)
  simp only [identifiers_eq_ok_iff one_lt, exists_forall₂_iff, ← exists_symbol_iff one_lt]
  refine forall₂_congr fun m _ => ?_
  constructor
  · rintro ⟨i, -, h⟩
    exact ⟨i.2, h⟩
  · rintro ⟨i, h⟩
    exact ⟨(m.1, i), rfl, h⟩

/-! ## Hints and references -/

theorem hints_settles (room : Room) (d : Document) :
    Settles (AreHintMembers (hintSection d)) (Stage.hints.Overruns room d) .hint
      (hints (part "hints" d)) := by
  refine (hintMembers_settles [] (hintSection d)).of_iff ?_ ?_
  · simp [Unseen]
  · simp [Stage.Overruns, MeetsOverlong, Unseen]

theorem references_settles {d : Document} (h : IsArtifact d) (names : List (Int × Text)) :
    Settles (∀ v ∈ referenceRecords d, ∃ r : Reference, r.DescribedBy v) False .reference
      (references names (part "reference_manager" d)) := by
  refine .of_refuses ?_ (references_refuses names _)
  have tables : (∃ t, references names (part "reference_manager" d) = .ok t) ↔
      ∃ rs, List.Forall₂ (NamedBy names) (referenceRecords d).zipIdx rs := by
    simp only [references_eq_ok_iff h.listed]
    exact ⟨fun ⟨t, ht⟩ => ⟨t.references, ht⟩, fun ⟨rs, hrs⟩ => ⟨⟨rs⟩, hrs⟩⟩
  rw [tables, exists_forall₂_iff]
  simp only [exists_named_iff]
  constructor
  · intro each v hv
    obtain ⟨n, hn⟩ := List.mem_iff_getElem?.mp hv
    exact each (v, n) (List.mem_zipIdx_iff_getElem?.mpr hn)
  · exact fun each p hp => each p.1 (List.fst_mem_of_mem_zipIdx hp)

/-- A record describes at most one hint. -/
theorem hint_unique {v : Document} {h h' : Hint} (described : h.DescribedBy v)
    (described' : h'.DescribedBy v) : h = h' := by
  have same := (Hint.check_eq_valid.mpr described).symm.trans (Hint.check_eq_valid.mpr described')
  exact Checked.valid.inj same

/-- The indices in loaded hints are those in the document. -/
theorem namedBelow_iff {d : Document} {hs : List (Int × List Hint)}
    (held : HintsHeldBy (hintSection d) hs) :
    NamedBelow (referenceRecords d).length hs ↔ IdsInRange d := by
  constructor
  · intro below m hm ds hds v hv h described id hid
    obtain ⟨entries, all, -, rfl⟩ := held
    obtain ⟨entry, hentry, -, -, ds', hds', each⟩ := exists_right_of_forall₂ all m hm
    obtain rfl : ds = ds' := Document.list.inj (hds.symm.trans hds')
    obtain ⟨h', hh', described'⟩ := exists_right_of_forall₂ each v hv
    obtain rfl := hint_unique described described'
    have some_hint : entry.2 ≠ [] := List.ne_nil_of_mem hh'
    exact below entry (List.mem_filter.mpr ⟨hentry, by simpa using some_hint⟩) h hh' id hid
  · intro range entry hentry h hh id hid
    obtain ⟨entries, all, -, rfl⟩ := held
    obtain ⟨m, hm, -, -, ds, hds, each⟩ :=
      exists_left_of_forall₂ all entry (List.mem_filter.mp hentry).1
    obtain ⟨v, hv, described⟩ := exists_left_of_forall₂ each h hh
    exact range m hm ds hds v hv h described id hid

theorem short_ids {v : Document} {h : Hint} (described : h.DescribedBy v) (short : v.Short) :
    ∀ id ∈ h.referenceIds, Document.ShortInteger id.2 := by
  obtain ⟨ms, rfl, -, -, fs, hfs, -, ⟨-, none⟩ | ⟨hids, -⟩⟩ := described
  · simp [none]
  · have members := Document.short_map.mp ((short.of_lookup hfs).of_lookup hids)
    intro id hid
    exact Document.short_int.mp (members (id.1, .int id.2) (List.mem_map_of_mem hid))

theorem shortHints {d : Document} (short : d.Short) {hs : List (Int × List Hint)}
    (held : HintsHeldBy (hintSection d) hs) : ShortHints hs := by
  have section_short : ∀ m ∈ hintSection d, m.2.Short := by
    intro m hm
    unfold hintSection part at hm
    cases found : d.member? ("hints" : Text) with
    | none => simp [found, Document.members?] at hm
    | some v =>
      rw [found] at hm
      exact (short.of_member? found).of_members? m hm
  intro entry hentry
  refine ⟨held.short entry hentry, fun h hh => ?_⟩
  obtain ⟨-, m, hm, -, -, ds, hds, each⟩ := held.entry entry hentry
  obtain ⟨v, hv, described⟩ := exists_left_of_forall₂ each h hh
  have list_short := section_short m hm
  rw [hds] at list_short
  exact short_ids described (Document.short_list.mp list_short v hv)

theorem checkReferenceIds_settles {d : Document} (short : d.Short) {hs : List (Int × List Hint)}
    (held : HintsHeldBy (hintSection d) hs) {count : Nat}
    (all : count = (referenceRecords d).length) :
    Settles (IdsInRange d) False .hint (checkReferenceIds count hs) := by
  refine .of_refuses ?_ (checkReferenceIds_refuses count (shortHints short held))
  rw [← namedBelow_iff held, ← all, ← checkReferenceIds_eq_ok_iff]
  exact ⟨fun ⟨(), h⟩ => h, fun h => ⟨(), h⟩⟩

/-! ## All stages -/

theorem read_ends (room : Room) {d : Document} (short : d.Short) (entrypoint : Text)
    (expected : Option Int) :
    Ends room d expected Stage.order (read room d entrypoint expected) := by
  refine Ends.bind (checkLayout_settles room.inner short) fun _ hlayout => ?_
  have layout := checkLayout_eq_ok_iff.mp hlayout
  refine Ends.bind (prime_settles _) fun p hprime => ?_
  obtain ⟨hp, one_lt⟩ := prime_eq_ok_iff.mp hprime
  refine Ends.bind (checkPrime_settles hp expected) fun _ _ => ?_
  refine Ends.bind (words_settles one_lt d) fun _ _ => ?_
  refine Ends.bind (identifiers_settles one_lt d) fun _ _ => ?_
  refine Ends.bind (hints_settles room d) fun hs hhints => ?_
  have held := hints_eq_ok_iff.mp hhints
  refine Ends.bind (references_settles layout _) fun t hreferences => ?_
  have all := ((references_eq_ok_iff layout.listed).mp hreferences).length_eq.symm
  rw [List.length_zipIdx] at all
  refine Ends.bind (checkReferenceIds_settles short held all) fun _ _ => ?_
  exact .loaded _

end FieldProgram.Artifact

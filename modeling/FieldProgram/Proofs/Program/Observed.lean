import FieldProgram.CommandLine.Summary
import FieldProgram.Proofs.Artifact.Reordered
import FieldProgram.Proofs.Program.Reload
import FieldProgram.Proofs.Text.Order

/-!
# What can be seen of a program

Programs that agree answer every query alike: what is looked up in them, the artifact that is
written of them up to the order of its members, and their summary to the letter. Loaded programs
also agree if they start at the same place and their artifacts are the same up to that order.

* `Program.SameAnswers`: the queries and their answers;
* `AlikeApart.sameAnswers`: programs that are alike but for the order of their mappings;
* `Loads.agree_of_reordered`: an artifact shows all of a loaded program but where it starts;
* `agree_observed`: both directions.
-/

namespace FieldProgram

open Numeral Document Entries

/-- Every query has the same answer for both programs, mappings in any order. -/
structure Program.SameAnswers (p q : Program) : Prop where
  identifier : ∀ name, p.identifier? name = q.identifier? name
  hints : ∀ pc, List.Forall₂ (fun a b : Hint => a.agree b = true) (p.hintsAt pc) (q.hintsAt pc)
  dataLength : p.dataLength = q.dataLength
  constants : (p.constants.map Prod.fst).Nodup ∧ p.constants.Perm q.constants
  reference : ∀ name, p.references.lookup name = q.references.lookup name
  indexed : ∀ index, p.references.get index = q.references.get index
  names : p.references.names = q.references.names
  artifact : Except.Related Reordered p.encode q.encode
  summary : ∀ entrypoint, CommandLine.summary p entrypoint = CommandLine.summary q entrypoint

/-! ## Programs that agree are alike -/

theorem Hint.alike_of_agree {a b : Hint} (agree : a.agree b = true)
    (nodup : (a.referenceIds.map Prod.fst).Nodup) : a.Alike b := by
  simp only [Hint.agree, Bool.and_eq_true, beq_iff_eq] at agree
  obtain ⟨⟨⟨code, scopes⟩, tracking⟩, ids⟩ := agree
  exact ⟨code, scopes, tracking, perm_of_agreeBy ids nodup, nodup⟩

namespace Artifact

variable {p q : Program}

theorem alikeApart_of_agree (pcs : (p.hints.map Prod.fst).Nodup) (names : p.NamesDistinct)
    (agree : p.agree q = true) : AlikeApart p q ∧ p.references = q.references := by
  simp only [Program.agree, Bool.and_eq_true, beq_iff_eq] at agree
  obtain ⟨⟨⟨⟨⟨⟨builtins, prime⟩, data⟩, main⟩, hints⟩, references⟩, identifiers⟩ := agree
  have alike : Matched EntryAlike p.hints q.hints := by
    refine (matched_of_agreeBy hints pcs).imp_of_mem fun entry hentry entry' same => ⟨same.1, ?_⟩
    have agree := Hint.forall₂_agree_iff.mp same.2
    exact forall₂_imp_of_mem agree fun h hh h' agree =>
      Hint.alike_of_agree agree (names.ids entry hentry h hh)
  exact ⟨⟨prime, builtins, data, main, alike, perm_of_agreeBy identifiers names.identifiers⟩,
    references⟩

/-! ## Artifacts -/

theorem reordered_encode_of_alike {a b : Hint} (h : a.Alike b) : a.encode.Reordered b.encode := by
  obtain ⟨code, scopes, tracking, ids⟩ := a
  obtain ⟨code', scopes', tracking', ids'⟩ := b
  obtain ⟨rfl, rfl, rfl, perm, -⟩ := h
  have names := Reordered.of_perm (perm.map fun id => (id.1, Document.int id.2))
  have flow := names.member [("ap_tracking", tracking.encode)] "reference_ids" []
  exact flow.member [("code", .str code), ("accessible_scopes", .list (scopes.map .str))]
    "flow_tracking_data" []

theorem AlikeApart.reordered_artifact (h : AlikeApart p q)
    (references : p.references = q.references) : p.artifact.Reordered q.artifact := by
  have identifiers := Reordered.of_perm (h.identifiers.map fun i => (i.1, i.2.encode))
  have entries : Matched (Alike Reordered) p.hintMembers q.hintMembers := by
    refine h.hints.map fun x y same => ⟨?_, reordered_list.mpr ⟨_, rfl, ?_⟩⟩
    · exact congrArg (fun pc => (shortDecimal pc : Text)) same.1
    · rw [List.forall₂_map_left_iff, List.forall₂_map_right_iff]
      exact same.2.imp fun _ _ alike => reordered_encode_of_alike alike
  have hints : Reordered (.map p.hintMembers) (.map q.hintMembers) :=
    reordered_map.mpr ⟨_, rfl, entries⟩
  refine reordered_map.mpr ⟨_, rfl, _, ?_, .refl _⟩
  rw [h.prime, h.builtins, h.data, references]
  exact .cons ⟨rfl, .refl _⟩ (.cons ⟨rfl, .refl _⟩ (.cons ⟨rfl, .refl _⟩
    (.cons ⟨rfl, identifiers⟩ (.cons ⟨rfl, hints⟩ (.cons ⟨rfl, .refl _⟩ .nil)))))

theorem failsUnless_encode (p : Program) :
    Except.FailsUnless (∀ entry ∈ p.hints, ShortInteger entry.1) .writing p.encode := by
  have entries : Except.FailsUnless (∀ entry ∈ p.hints, ShortInteger entry.1) .writing
      (p.hints.mapM Program.encodeHints) :=
    .mapM fun entry _ => (failsUnless_decimalText entry.1).map _
  exact entries.map _

/-- Where a program counter has no decimal text neither program can be written. -/
theorem AlikeApart.related_encode (h : AlikeApart p q) (references : p.references = q.references) :
    Except.Related Reordered p.encode q.encode := by
  have counters := keys_perm h.hints
  have short : (∀ entry ∈ p.hints, ShortInteger entry.1) ↔
      ∀ entry ∈ q.hints, ShortInteger entry.1 := by
    rw [← List.forall_mem_map (f := Prod.fst), ← List.forall_mem_map (f := Prod.fst)]
    exact forall_congr' fun pc => imp_congr_left counters.mem_iff
  refine (failsUnless_encode p).related (failsUnless_encode q) short fun d e hd he => ?_
  have fits := (failsUnless_encode p).exists_ok_iff.mp ⟨d, hd⟩
  rw [Program.encode_eq fits] at hd
  rw [Program.encode_eq (short.mp fits)] at he
  obtain rfl := Except.ok.inj hd
  obtain rfl := Except.ok.inj he
  exact h.reordered_artifact references

/-! ## Summaries -/

theorem constants_nodup (names : (p.identifiers.map Prod.fst).Nodup) :
    (p.constants.map Prod.fst).Nodup := by
  have named (i : Text × Identifier) (c : Text × Felt)
      (h : i.2.constant?.map (i.1, ·) = some c) : i.1 = c.1 := by
    obtain ⟨f, -, rfl⟩ := Option.map_eq_some_iff.mp h
    rfl
  rw [List.Nodup, List.pairwise_map] at names ⊢
  refine List.pairwise_filterMap.mpr (names.imp fun {i j} differ c hc d hd => ?_)
  rw [← named i c hc, ← named j d hd]
  exact differ

theorem AlikeApart.constants_perm (h : AlikeApart p q) : p.constants.Perm q.constants :=
  h.identifiers.filterMap _

theorem AlikeApart.hintPcs_eq (h : AlikeApart p q) :
    CommandLine.hintPcs p = CommandLine.hintPcs q := by
  unfold CommandLine.hintPcs
  refine mergeSort_eq_of_perm ?_ ?_ ?_ (keys_perm h.hints)
  · simp only [decide_eq_true_eq]
    exact fun a b c => Int.le_trans
  · simp only [Bool.or_eq_true, decide_eq_true_eq]
    exact Int.le_total
  · simp only [decide_eq_true_eq]
    exact fun a _ b _ => Int.le_antisymm

theorem AlikeApart.sortedConstants_eq (h : AlikeApart p q)
    (names : (p.identifiers.map Prod.fst).Nodup) :
    CommandLine.sortedConstants p = CommandLine.sortedConstants q := by
  have nodup := constants_nodup names
  unfold CommandLine.sortedConstants
  refine mergeSort_eq_of_perm (fun a b c => Text.codesLe_trans) (fun a b => ?_)
    (fun a ha b hb le le' => ?_) h.constants_perm
  · exact (Bool.or_eq_true ..).mpr (Text.codesLe_total ..)
  · have name : a.1 = b.1 := Text.eq_of_le_of_le le le'
    have value := lookup_of_mem nodup hb
    rw [← name, lookup_of_mem nodup ha] at value
    exact Prod.ext name (Option.some.inj value)

theorem AlikeApart.summary_eq (h : AlikeApart p q) (references : p.references = q.references)
    (names : (p.identifiers.map Prod.fst).Nodup) (entrypoint : Text) :
    CommandLine.summary p entrypoint = CommandLine.summary q entrypoint := by
  have main : CommandLine.mainText p entrypoint = CommandLine.mainText q entrypoint := by
    rw [CommandLine.mainText, CommandLine.mainText, h.main]
  have size : p.dataLength = q.dataLength := congrArg List.length h.data
  rw [CommandLine.summary, CommandLine.summary, main, h.hintPcs_eq, h.sortedConstants_eq names,
    h.prime, h.builtins, size, h.identifiers.length_eq, references]

/-! ## Answers -/

theorem AlikeApart.sameAnswers (h : AlikeApart p q) (references : p.references = q.references)
    (pcs : (p.hints.map Prod.fst).Nodup) (names : (p.identifiers.map Prod.fst).Nodup) :
    p.SameAnswers q where
  identifier name := by
    refine lookup_of_perm h.identifiers fun a b ha hb => ?_
    exact Option.some.inj ((lookup_of_mem names ha).symm.trans (lookup_of_mem names hb))
  hints pc := by
    have found := lookup_of_matched h.hints pcs pc
    unfold Program.hintsAt
    rcases rel_cases found with ⟨hp, hq⟩ | ⟨as, bs, hp, hq, same⟩
    · rw [hp, hq]
      exact .nil
    · rw [hp, hq]
      exact same.imp fun _ _ alike => alike.agree
  dataLength := congrArg List.length h.data
  constants := ⟨constants_nodup names, h.constants_perm⟩
  reference name := by rw [references]
  indexed index := by rw [references]
  names := by rw [references]
  artifact := h.related_encode references
  summary := h.summary_eq references names

/-! ## What an artifact shows -/

section

variable {d e : Document} {entrypoint entrypoint' : Text} {expected expected' : Option Int}

theorem name_of_nameless {r : Reference} (nameless : Nameless r.encode) : r.name = none := by
  obtain ⟨value, tracking, pc, name⟩ := r
  cases name with
  | none => rfl
  | some t =>
    have found : (Reference.encode ⟨value, tracking, pc, some t⟩).member? ("name" : Text) =
        some (.str t) := by
      cases pc <;> rfl
    rw [Nameless, found] at nameless
    rcases nameless with absent | null
    · cases absent
    · cases null

/-- In the artifact of a loaded program a reference has no name only where hints give it none. -/
theorem Loads.not_namedByOrder (loads : Loads d entrypoint expected p) (i : Nat) :
    ¬NamedByOrder p.artifact p.hints i := by
  rintro ⟨⟨v, hv, nameless⟩, a, b, ha, -, -⟩
  have records : referenceRecords p.artifact = p.references.references.map Reference.encode := rfl
  rw [records, List.getElem?_map] at hv
  obtain ⟨r, hr, rfl⟩ := Option.map_eq_some_iff.mp hv
  have none := name_of_nameless nameless
  obtain ⟨w, -, own, -, rfl⟩ := loads.reference hr
  have unnamed := List.lookup_eq_none_iff.mp (Option.or_eq_none_iff.mp none).2 _ ha
  simp at unnamed

/-- An artifact shows everything of a loaded program but where it starts. -/
theorem Loads.agree_of_reordered (loads : Loads d entrypoint expected p) (distinct : d.KeysDistinct)
    (loads' : Loads e entrypoint' expected' q) (same : p.artifact.Reordered q.artifact)
    (main : p.main = q.main) : p.agree q = true := by
  -- Both artifacts are loaded for one entry point, so that nothing counts but what they show.
  have entered := loads.enter ("main" : Text)
  have entered' := loads'.enter ("main" : Text)
  have h : p.artifact.Rearranged q.artifact := ⟨loads.keysDistinct_artifact distinct, same⟩
  obtain ⟨q', loads'', alike⟩ := entered.reload.rearranged h
  obtain rfl := loads''.unique entered'.reload
  have agree :=
    (entered.reload.agreesUpToNames loads'' h alike).agree entered.not_namedByOrder
  simp only [Program.agree, Bool.and_eq_true, beq_iff_eq] at agree ⊢
  obtain ⟨⟨⟨⟨⟨⟨builtins, prime⟩, data⟩, -⟩, hints⟩, references⟩, identifiers⟩ := agree
  exact ⟨⟨⟨⟨⟨⟨builtins, prime⟩, data⟩, main⟩, hints⟩, references⟩, identifiers⟩

end

theorem agree_observed :
    (∀ p q : Program, (p.hints.map Prod.fst).Nodup → p.NamesDistinct → p.agree q = true →
      p.SameAnswers q) ∧
    ∀ (room room' : Room) (d e : Document) (entrypoint entrypoint' : Text)
      (expected expected' : Option Int) (p q : Program), d.KeysDistinct →
        (load room d entrypoint expected).outcome = .ok p →
        (load room' e entrypoint' expected').outcome = .ok q →
          ∃ a b, p.encode = .ok a ∧ q.encode = .ok b ∧
            (a.Reordered b → p.main = q.main → p.agree q = true) := by
  constructor
  · intro p q pcs names agree
    obtain ⟨alike, references⟩ := alikeApart_of_agree pcs names agree
    exact alike.sameAnswers references pcs names.identifiers
  · intro room room' d e entrypoint entrypoint' expected expected' p q distinct loaded loaded'
    have loads := load_eq_ok_iff.mp loaded
    have loads' := load_eq_ok_iff.mp loaded'
    exact ⟨p.artifact, q.artifact, Program.encode_eq loads.hints.short,
      Program.encode_eq loads'.hints.short, loads.agree_of_reordered distinct loads'⟩

/-! ## Symbols in two orders -/

/-- A program that has nothing but symbols. -/
def symbolProgram (symbols : List (Text × Identifier)) : Program where
  prime := 17
  identifiers := symbols

section

variable {symbols others : List (Text × Identifier)}

theorem symbolProgram_loads (wf : ∀ i ∈ symbols, i.2.WellFormed 17)
    (no_main : entryPc? symbols "main" = none) :
    Loads (symbolProgram symbols).artifact "main" none (symbolProgram symbols) where
  layout := artifact_isArtifact _
  prime := integerOfText_hexText 17
  one_lt := show (1 : Int) < 17 by decide
  expected := by simp
  data := .nil
  symbols := by
    show List.Forall₂ _ (symbols.map fun i => (i.1, i.2.encode)) symbols
    rw [List.forall₂_map_left_iff, List.forall₂_same]
    exact fun i hi => ⟨rfl, symbolDescribedBy_encode (wf i hi)⟩
  hints := ⟨[], .nil, List.nodup_nil, rfl⟩
  references := .nil
  named := by simp [NamedBelow, symbolProgram]
  builtins := rfl
  main := no_main.symm

theorem symbolProgram_namesDistinct (nodup : (symbols.map Prod.fst).Nodup) :
    (symbolProgram symbols).NamesDistinct :=
  ⟨nodup, by simp [symbolProgram]⟩

theorem symbolProgram_alikeApart (perm : symbols.Perm others) :
    AlikeApart (symbolProgram symbols) (symbolProgram others) :=
  ⟨rfl, rfl, rfl, rfl, ⟨[], .nil, .nil⟩, perm⟩

theorem symbolProgram_main : (symbolProgram symbols).main = none := rfl

theorem symbolProgram_references : (symbolProgram symbols).references = {} := rfl

end

/-- Two constants, not in the order of their names. -/
def twoConstants (f g : Felt) : List (Text × Identifier) := [
  ("__main__.LIMIT", { type := some "const", value := some f }),
  ("__main__.BASE", { type := some "const", value := some g })]

theorem twoConstants_wellFormed {f g : Felt} (hf : f.prime = 17) (hg : g.prime = 17) :
    ∀ i ∈ twoConstants f g, i.2.WellFormed 17 := by
  have constant (f : Felt) (prime : f.prime = 17) :
      Identifier.WellFormed 17 { type := some ("const" : Text), value := some f } := by
    refine ⟨by simp, ?_⟩
    rintro _ ⟨⟩
    have := f.value_lt_prime
    exact ⟨by omega, by omega, by omega⟩
  simp only [twoConstants, List.forall_mem_cons]
  exact ⟨constant f hf, constant g hg, by simp⟩

theorem twoConstants_nodup (f g : Felt) : ((twoConstants f g).map Prod.fst).Nodup := by
  show [("__main__.LIMIT" : Text), ("__main__.BASE" : Text)].Nodup
  decide

/-- Two loaded programs whose constants stand in another order have one summary. -/
theorem agree_observed_twoConstants : ∃ p q : Program, p.constants ≠ q.constants ∧
    p.agree q = true ∧ CommandLine.summary p "start" = CommandLine.summary q "start" := by
  have seen (f g : Felt) (hf : f.prime = 17) (hg : g.prime = 17) :
      (symbolProgram (twoConstants f g)).agree (symbolProgram (twoConstants f g).reverse) = true ∧
        CommandLine.summary (symbolProgram (twoConstants f g)) "start" =
          CommandLine.summary (symbolProgram (twoConstants f g).reverse) "start" := by
    have forwards := twoConstants_wellFormed hf hg
    have loads := symbolProgram_loads forwards rfl
    have backwards : ∀ i ∈ (twoConstants f g).reverse, i.2.WellFormed 17 :=
      fun i hi => forwards i (List.mem_reverse.mp hi)
    have loads' := symbolProgram_loads backwards rfl
    have names := symbolProgram_namesDistinct (twoConstants_nodup f g)
    have alike := symbolProgram_alikeApart (List.reverse_perm (twoConstants f g)).symm
    have reordered := alike.reordered_artifact
      (symbolProgram_references.trans symbolProgram_references.symm)
    obtain ⟨a, b, ha, hb, shown⟩ := agree_observed.2 .standard .standard _ _ _ _ _ _ _ _
      (loads.wellFormed.keysDistinct_artifact names) (load_eq_ok_iff.mpr loads)
      (load_eq_ok_iff.mpr loads')
    obtain rfl := Except.ok.inj (ha.symm.trans (Program.encode_eq loads.hints.short))
    obtain rfl := Except.ok.inj (hb.symm.trans (Program.encode_eq loads'.hints.short))
    have agree := shown reordered (symbolProgram_main.trans symbolProgram_main.symm)
    have same := agree_observed.1 _ _ loads.hints.distinct names agree
    exact ⟨agree, same.summary "start"⟩
  refine ⟨_, _, ?_, seen ⟨5, 17, by decide, by decide⟩ ⟨2, 17, by decide, by decide⟩ rfl rfl⟩
  decide

end Artifact

end FieldProgram

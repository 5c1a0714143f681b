import FieldProgram.Proofs.Artifact.Sections
import FieldProgram.Proofs.Document.Reordered

/-!
# Values read from documents in another order

A document whose members stand in another order describes the same value. Only a hint keeps the
order of the names of references, and so it describes a hint with these in another order.

* `ApTracking.DescribedBy.rearranged`, `SymbolDescribedBy.rearranged`,
  `Reference.DescribedBy.rearranged`, `Word.DescribedBy.rearranged`: the same value;
* `Hint.DescribedBy.rearranged`: the hint up to the order of its names.
-/

namespace FieldProgram

open Document Entries

variable {ms ns : List (Text × Document)} {d e : Document}

/-! ## Members -/

theorem lookup_rearranged (h : Rearranged (.map ms) (.map ns)) {name : Text} {v : Document}
    (found : ms.lookup name = some v) : ∃ w, ns.lookup name = some w ∧ v.Rearranged w := by
  rcases rel_cases (h.lookup name) with ⟨absent, -⟩ | ⟨v', w, found', hw, same⟩
  · cases found.symm.trans absent
  · obtain rfl := Option.some.inj (found.symm.trans found')
    exact ⟨w, hw, same⟩

theorem lookup_none_rearranged (h : Rearranged (.map ms) (.map ns)) {name : Text}
    (absent : ms.lookup name = none) : ns.lookup name = none := by
  rcases rel_cases (h.lookup name) with ⟨-, none⟩ | ⟨v, w, found, -⟩
  · exact none
  · cases absent.symm.trans found

theorem lookup_leaf_rearranged (h : Rearranged (.map ms) (.map ns)) {name : Text} {v : Document}
    (found : ms.lookup name = some v) (leaf : ∀ w, v.Reordered w → w = v) :
    ns.lookup name = some v := by
  obtain ⟨w, hw, same⟩ := lookup_rearranged h found
  rw [hw, leaf w same.2]

theorem Holds.rearranged {α : Type} {name : Text} {means : Document → α → Prop} {o : Option α}
    (holds : Holds name ms means o) (h : Rearranged (.map ms) (.map ns))
    (kept : ∀ v w a, v.Rearranged w → means v a → means w a) : Holds name ns means o := by
  cases o with
  | none =>
    rcases holds with absent | null
    · exact .inl (lookup_none_rearranged h absent)
    · exact .inr (lookup_leaf_rearranged h null fun w hw => reordered_null.mp hw)
  | some a =>
    obtain ⟨v, found, meant⟩ := holds
    obtain ⟨w, hw, same⟩ := lookup_rearranged h found
    exact ⟨w, hw, kept v w a same meant⟩

theorem IsNatural.rearranged {n : Int} (natural : IsNatural d n) (h : d.Rearranged e) :
    IsNatural e n := by
  obtain ⟨rfl, nonneg⟩ := natural
  exact ⟨reordered_int.mp h.2, nonneg⟩

theorem str_rearranged {t : Text} (text : d = .str t) (h : d.Rearranged e) : e = .str t := by
  obtain rfl := text
  exact reordered_str.mp h.2

/-! ## Records -/

theorem ApTracking.DescribedBy.rearranged {t : ApTracking} (described : t.DescribedBy d)
    (h : d.Rearranged e) : t.DescribedBy e := by
  obtain ⟨ms, rfl, ⟨v, hv, group⟩, v', hv', offset⟩ := described
  obtain ⟨ns, rfl, -⟩ := h.map
  obtain ⟨w, hw, same⟩ := lookup_rearranged h hv
  obtain ⟨w', hw', same'⟩ := lookup_rearranged h hv'
  exact ⟨ns, rfl, ⟨w, hw, group.rearranged same⟩, w', hw', offset.rearranged same'⟩

theorem IdentifierRecord.DescribedBy.rearranged {r : IdentifierRecord}
    (described : r.DescribedBy d) (h : d.Rearranged e) : r.DescribedBy e := by
  obtain ⟨ms, rfl, keys, pc, type, value⟩ := described
  obtain ⟨ns, rfl, -, members⟩ := h.map
  refine ⟨ns, rfl, fun n hn => ?_, ?_, ?_, ?_⟩
  · obtain ⟨m, hm, key, -⟩ := members.exists_left n hn
    exact key ▸ keys m hm
  · exact pc.rearranged h fun v w n same natural => natural.rearranged same
  · exact type.rearranged h fun v w t same text => str_rearranged text same
  · exact value.rearranged h fun v w n same literal => same.integer ▸ literal

theorem Artifact.SymbolDescribedBy.rearranged {prime : Int} {i : Identifier}
    (described : SymbolDescribedBy prime i d) (h : d.Rearranged e) :
    SymbolDescribedBy prime i e := by
  obtain ⟨r, record, parts⟩ := described
  exact ⟨r, record.rearranged h, parts⟩

theorem Reference.DescribedBy.rearranged {r : Reference} (described : r.DescribedBy d)
    (h : d.Rearranged e) : r.DescribedBy e := by
  obtain ⟨ms, rfl, ⟨v, hv, tracking⟩, pc, value, name⟩ := described
  obtain ⟨ns, rfl, -⟩ := h.map
  obtain ⟨w, hw, same⟩ := lookup_rearranged h hv
  refine ⟨ns, rfl, ⟨w, hw, tracking.rearranged same⟩, ?_, ?_, ?_⟩
  · exact pc.rearranged h fun v w n same natural => natural.rearranged same
  · exact lookup_leaf_rearranged h value fun w hw => reordered_str.mp hw
  · exact name.rearranged h fun v w t same text => str_rearranged text same

/-! ## Words -/

theorem Word.DescribedBy.rearranged {prime : Int} {w : Word} (described : w.DescribedBy prime d)
    (h : d.Rearranged e) : w.DescribedBy prime e := by
  cases w with
  | felt f =>
    obtain ⟨n, hn, represents⟩ := described
    exact ⟨n, h.integer ▸ hn, represents⟩
  | relocatable r =>
    obtain ⟨ms, rfl, only, segment, offset⟩ := described
    obtain ⟨ns, rfl, -, members⟩ := h.map
    refine ⟨ns, rfl, fun n hn => ?_, ?_, ?_⟩
    · obtain ⟨m, hm, key, -⟩ := members.exists_left n hn
      exact key ▸ only m hm
    · exact lookup_leaf_rearranged h segment fun w hw => reordered_int.mp hw
    · exact lookup_leaf_rearranged h offset fun w hw => reordered_int.mp hw

/-! ## Hints -/

/-- The hints are the same up to the order of their names of references, none of them twice. -/
structure Hint.Alike (a b : Hint) : Prop where
  code : a.code = b.code
  scopes : a.scopes = b.scopes
  tracking : a.apTracking = b.apTracking
  ids : a.referenceIds.Perm b.referenceIds
  nodup : (a.referenceIds.map Prod.fst).Nodup

theorem Hint.Alike.agree {a b : Hint} (h : a.Alike b) : a.agree b = true := by
  have ids : agreeBy (· == ·) a.referenceIds b.referenceIds = true := agreeBy_of_perm h.ids h.nodup
  simp [Hint.agree, h.code, h.scopes, h.tracking, ids]

/-- A list of texts has no members that could be in another order. -/
theorem texts_rearranged {ts : List Text} (h : Reordered (.list (ts.map .str)) e) :
    e = .list (ts.map .str) := by
  obtain ⟨ys, rfl, items⟩ := reordered_list.mp h
  rw [List.forall₂_map_left_iff] at items
  have same : List.Forall₂ (fun y t => y = .str t) ys ts :=
    (items.imp fun t y item => reordered_str.mp item).flip
  rw [← List.forall₂_map_right_iff, List.forall₂_eq_eq_eq] at same
  rw [same]

/-- Names with their indices in another order are names with their indices. -/
theorem ids_rearranged {ids : List (Text × Int)}
    (h : Rearranged (.map (ids.map fun (name, n) => (name, .int n))) e) :
    ∃ ids', e = .map (ids'.map fun (name, n) => (name, .int n)) ∧ ids.Perm ids' := by
  obtain ⟨ns, rfl, -, members⟩ := h.map
  let member : Text × Int → Text × Document := fun (name, n) => (name, .int n)
  have described : List.Forall₂ (fun m id => m = member id) (ids.map member) ids :=
    List.forall₂_map_left_iff.mpr (List.forall₂_same.mpr fun _ _ => rfl)
  obtain ⟨ids', perm, same⟩ :=
    members.carry (S := Eq) (B := fun n id => n = member id) (by
      rintro _ id n rfl ⟨key, value⟩
      exact ⟨id, rfl, Prod.ext key.symm (reordered_int.mp value.2)⟩) described
  rw [← List.forall₂_map_right_iff, List.forall₂_eq_eq_eq] at same
  exact ⟨ids', congrArg Document.map same, matched_eq_iff.mp perm⟩

theorem Hint.IdsDescribedBy.rearranged {ids : List (Text × Int)}
    (described : Hint.IdsDescribedBy ids ms) (h : Rearranged (.map ms) (.map ns)) :
    ∃ ids', Hint.IdsDescribedBy ids' ns ∧ ids.Perm ids' := by
  rcases described with ⟨absent, rfl⟩ | ⟨found, nonneg⟩
  · exact ⟨[], .inl ⟨lookup_none_rearranged h absent, rfl⟩, .nil⟩
  · obtain ⟨w, hw, same⟩ := lookup_rearranged h found
    obtain ⟨ids', rfl, perm⟩ := ids_rearranged same
    exact ⟨ids', .inr ⟨hw, fun id hid => nonneg id (perm.mem_iff.mpr hid)⟩, perm⟩

theorem Hint.DescribedBy.rearranged {a : Hint} (described : a.DescribedBy d)
    (h : d.Rearranged e) : ∃ b : Hint, b.DescribedBy e ∧ a.Alike b := by
  have nodup := described.ids_nodup h.1
  obtain ⟨ms, rfl, code, scopes, fs, flow, ⟨v, hv, tracking⟩, ids⟩ := described
  obtain ⟨ns, rfl, -⟩ := h.map
  obtain ⟨w, hflow, same⟩ := lookup_rearranged h flow
  obtain ⟨gs, rfl, -⟩ := same.map
  obtain ⟨w', hw', same'⟩ := lookup_rearranged same hv
  obtain ⟨ids', hids, perm⟩ := ids.rearranged same
  refine ⟨⟨a.code, a.scopes, a.apTracking, ids'⟩, ⟨ns, rfl, ?_, ?_, gs, hflow,
    ⟨w', hw', tracking.rearranged same'⟩, hids⟩, rfl, rfl, rfl, perm, nodup⟩
  · exact lookup_leaf_rearranged h code fun w hw => reordered_str.mp hw
  · rcases scopes with ⟨absent, none⟩ | found
    · exact .inl ⟨lookup_none_rearranged h absent, none⟩
    · exact .inr (lookup_leaf_rearranged h found fun w hw => texts_rearranged hw)

end FieldProgram

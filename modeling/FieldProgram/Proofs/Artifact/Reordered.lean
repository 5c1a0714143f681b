import FieldProgram.Proofs.Artifact.Load
import FieldProgram.Proofs.Record.Reordered

/-!
# Loading documents whose members stand in another order

The order of members in an artifact does not decide whether it loads. Two programs loaded from
documents that differ in it alone agree, but for the names of references that have none of their own
and for which the hints have several: of these the first counts.

* `Loads.rearranged`: a document that loads still does so in another order;
* `NamedBy.rearranged`: when the order decides about a name;
* `load_reordered`: both loads, and what their programs have in common.
-/

namespace FieldProgram

open Document Entries

/-- The programs agree up to the order of their mappings and up to the names of free references. -/
structure Program.AgreesUpToNames (free : Nat → Prop) (p q : Program) : Prop where
  prime : p.prime = q.prime
  builtins : p.builtins = q.builtins
  data : p.data = q.data
  main : p.main = q.main
  hints : agreeBy (fun a b => a.length == b.length && (a.zip b).all fun (x, y) => x.agree y)
    p.hints q.hints = true
  identifiers : agreeBy (· == ·) p.identifiers q.identifiers = true
  size : p.references.size = q.references.size
  references : ∀ i r s, p.references.references[i]? = some r →
    q.references.references[i]? = some s →
      r.value = s.value ∧ r.apTracking = s.apTracking ∧ r.pc = s.pc ∧ (r.name = s.name ∨ free i)

theorem Program.AgreesUpToNames.agree {free : Nat → Prop} {p q : Program}
    (h : p.AgreesUpToNames free q) (fixed : ∀ i, ¬ free i) : p.agree q = true := by
  have references : p.references = q.references := by
    have same : p.references.references = q.references.references := by
      refine List.ext_getElem h.size fun i hp hq => ?_
      obtain ⟨value, tracking, pc, name | free⟩ :=
        h.references i _ _ (List.getElem?_eq_getElem hp) (List.getElem?_eq_getElem hq)
      · cases hr : p.references.references[i]
        cases hs : q.references.references[i]
        simp_all
      · exact absurd free (fixed i)
    cases hp : p.references
    cases hq : q.references
    simp_all
  simp only [Program.agree, h.prime, h.builtins, h.data, h.main, h.hints, h.identifiers,
    references, beq_self_eq_true, Bool.and_self]

namespace Artifact

variable {d e : Document} {entrypoint : Text} {expected : Option Int}

/-! ## Layout -/

theorem IsText.rearranged (h : IsText d) (same : d.Rearranged e) : IsText e := by
  obtain ⟨t, text⟩ := h
  exact ⟨t, str_rearranged text same⟩

theorem IsList.rearranged (h : IsList d) (same : d.Rearranged e) : IsList e := by
  obtain ⟨xs, rfl⟩ := h
  obtain ⟨ys, rfl, -⟩ := same.list
  exact ⟨ys, rfl⟩

theorem IsMapping.rearranged (h : IsMapping d) (same : d.Rearranged e) : IsMapping e := by
  obtain ⟨ms, rfl⟩ := h
  obtain ⟨ns, rfl, -⟩ := same.map
  exact ⟨ns, rfl⟩

theorem IsIntegral.rearranged (h : IsIntegral d) (same : d.Rearranged e) : IsIntegral e := by
  rcases h with ⟨n, rfl⟩ | ⟨x, rfl, integral⟩
  · exact .inl ⟨n, reordered_int.mp same.2⟩
  · exact .inr ⟨x, reordered_float.mp same.2, integral⟩

section

variable {ms ns : List (Text × Document)} {name : String} {asked : Document → Prop}

theorem Has.rearranged (has : Has name ms asked) (h : Rearranged (.map ms) (.map ns))
    (kept : ∀ v w, asked v → v.Rearranged w → asked w) : Has name ns asked := by
  obtain ⟨v, hv, was⟩ := has
  obtain ⟨w, hw, same⟩ := lookup_rearranged h hv
  exact ⟨w, hw, kept v w was same⟩

theorem May.rearranged (may : May name ms asked) (h : Rearranged (.map ms) (.map ns))
    (kept : ∀ v w, asked v → v.Rearranged w → asked w) : May name ns asked := by
  intro w hw
  obtain ⟨v, hv, same⟩ := lookup_rearranged h.symm hw
  exact kept v w (may v hv) same.symm

theorem HasLayout.rearranged (layout : HasLayout ms) (h : Rearranged (.map ms) (.map ns)) :
    HasLayout ns where
  prime := layout.prime.rearranged h fun v w asked same =>
    asked.imp (fun text => text.rearranged same) fun integral => integral.rearranged same
  data := layout.data.rearranged h fun v w asked same => asked.rearranged same
  identifiers := layout.identifiers.rearranged h fun v w asked same => asked.rearranged same
  references := layout.references.rearranged h fun v w asked same => by
    obtain ⟨fs, rfl, listed⟩ := asked
    obtain ⟨gs, rfl, -⟩ := same.map
    exact ⟨gs, rfl, listed.rearranged same fun v w asked same => asked.rearranged same⟩
  hints := layout.hints.rearranged h fun v w asked same => asked.rearranged same
  builtins := layout.builtins.rearranged h fun v w asked same => by
    obtain ⟨xs, rfl, each⟩ := asked
    obtain ⟨ys, rfl, items⟩ := same.list
    refine ⟨ys, rfl, fun y hy => ?_⟩
    obtain ⟨x, hx, same⟩ := exists_left_of_forall₂ items y hy
    exact (each x hx).rearranged same
  mainScope := layout.mainScope.rearranged h fun v w asked same => asked.rearranged same
  attributes := layout.attributes.rearranged h fun v w asked same => asked.rearranged same
  compilerVersion := layout.compilerVersion.rearranged h fun v w asked same =>
    asked.rearranged same
  debugInfo := layout.debugInfo.rearranged h fun v w asked same =>
    asked.imp (fun mapping => mapping.rearranged same) fun null => by
      subst null
      exact reordered_null.mp same.2

end

theorem IsArtifact.rearranged (artifact : IsArtifact d) (h : d.Rearranged e) : IsArtifact e := by
  obtain ⟨ms, rfl, layout⟩ := artifact
  obtain ⟨ns, rfl, -⟩ := h.map
  exact ⟨ns, rfl, layout.rearranged h⟩

/-! ## Sections -/

theorem part_rearranged (h : d.Rearranged e) (name : String) :
    (part name d).Rearranged (part name e) := by
  unfold part
  rcases rel_cases (h.member? name) with ⟨hd, he⟩ | ⟨v, w, hd, he, same⟩
  · rw [hd, he]
    exact ⟨trivial, reordered_null.mpr rfl⟩
  · rw [hd, he]
    exact same

theorem text?_rearranged (h : d.Rearranged e) : text? d = text? e := by
  cases d with
  | map ms =>
    obtain ⟨ns, rfl, -⟩ := h.map
    rfl
  | list xs =>
    obtain ⟨ys, rfl, -⟩ := h.list
    rfl
  | _ =>
    obtain rfl : e = _ := h.2
    rfl

theorem builtins_rearranged (h : d.Rearranged e) : builtins d = builtins e := by
  have texts : List.Forall₂ Eq ((d.items?.getD []).filterMap text?)
      ((e.items?.getD []).filterMap text?) := by
    refine List.rel_filterMap (R := Rearranged) (fun v w same => ?_) h.items?
    rw [text?_rearranged same]
    cases text? w with
    | none => exact .none
    | some t => exact .some rfl
  rwa [List.forall₂_eq_eq_eq] at texts

theorem words_rearranged {prime : Int} {ws : List Word} (h : d.Rearranged e)
    (described : List.Forall₂ (fun v w => Word.DescribedBy prime w v) (dataItems d) ws) :
    List.Forall₂ (fun v w => Word.DescribedBy prime w v) (dataItems e) ws := by
  have items := (part_rearranged h "data").items?
  obtain ⟨ws', same, described'⟩ := forall₂_carry (S := Eq)
    (B := fun v w => Word.DescribedBy prime w v)
    (fun v w v' described same => ⟨w, rfl, described.rearranged same⟩) described items
  rw [List.forall₂_eq_eq_eq] at same
  exact same ▸ described'

/-- The symbols of the document, in the order of the other one. -/
theorem symbols_rearranged {prime : Int} {is : List (Text × Identifier)} (h : d.Rearranged e)
    (described : List.Forall₂ (fun m i => m.1 = i.1 ∧ SymbolDescribedBy prime i.2 m.2)
      (symbolMembers d) is) :
    ∃ is', is.Perm is' ∧
      List.Forall₂ (fun m i => m.1 = i.1 ∧ SymbolDescribedBy prime i.2 m.2) (symbolMembers e)
        is' := by
  have members := (part_rearranged h "identifiers").members?
  obtain ⟨is', perm, described'⟩ := members.carry (S := Eq)
    (B := fun m i => m.1 = i.1 ∧ SymbolDescribedBy prime i.2 m.2) (by
      rintro m i n ⟨key, described⟩ ⟨key', same⟩
      exact ⟨i, rfl, key'.symm.trans key, described.rearranged same⟩) described
  exact ⟨is', matched_eq_iff.mp perm, described'⟩

/-! ## Hints -/

/-- The program counters are the same, and their hints up to the order of names. -/
abbrev EntryAlike : Int × List Hint → Int × List Hint → Prop := Alike (List.Forall₂ Hint.Alike)

theorem HintsDescribedBy.rearranged {entry : Int × List Hint} {m n : Text × Document}
    (described : HintsDescribedBy entry m) (h : Alike Rearranged m n) :
    ∃ entry', EntryAlike entry entry' ∧ HintsDescribedBy entry' n := by
  obtain ⟨pc, hs⟩ := entry
  obtain ⟨key, v⟩ := m
  obtain ⟨_, w⟩ := n
  obtain ⟨denotes, length, ds, rfl, described⟩ := described
  obtain ⟨rfl, same⟩ := h
  obtain ⟨es, rfl, items⟩ := same.list
  obtain ⟨hs', alike, described'⟩ := forall₂_carry (S := Hint.Alike)
    (B := fun v h => Hint.DescribedBy h v)
    (fun v a w described same => by
      obtain ⟨b, described', alike⟩ := described.rearranged same
      exact ⟨b, alike, described'⟩) described items
  exact ⟨(pc, hs'), ⟨rfl, alike⟩, denotes, length, es, rfl, described'⟩

theorem HintsHeldBy.rearranged {ms ns : List (Text × Document)} {hs : List (Int × List Hint)}
    (held : HintsHeldBy ms hs) (h : Matched (Alike Rearranged) ms ns) :
    ∃ hs', HintsHeldBy ns hs' ∧ Matched EntryAlike hs hs' := by
  obtain ⟨entries, described, nodup, rfl⟩ := held
  obtain ⟨entries', alike, described'⟩ := h.carry
    (fun m entry n described same => described.rearranged same) described
  have nodup' := (keys_perm alike).nodup_iff.mp nodup
  refine ⟨_, ⟨entries', described', nodup', rfl⟩, alike.filter fun a b same => ?_⟩
  have length := same.2.length_eq
  rw [Bool.eq_iff_iff]
  simp [List.ne_nil_iff_length_pos, length]

theorem namings_perm {hs hs' : List (Int × List Hint)} (h : Matched EntryAlike hs hs') :
    (namings hs).Perm (namings hs') := by
  refine h.flatMap_perm fun a b alike => ?_
  refine forall₂_flatMap_perm (fun x y same => ?_) alike.2
  exact same.ids.map _

theorem namedBelow_iff_namings {count : Nat} {hs : List (Int × List Hint)} :
    NamedBelow count hs ↔ ∀ n ∈ namings hs, n.1 < (count : Int) := by
  simp only [NamedBelow, namings, List.mem_flatMap, List.mem_map]
  constructor
  · rintro below _ ⟨entry, hentry, h, hh, id, hid, rfl⟩
    exact below entry hentry h hh id hid
  · intro below entry hentry h hh id hid
    exact below _ ⟨entry, hentry, h, hh, id, hid, rfl⟩

/-! ## References -/

/-- The record of a reference has no name. -/
def Nameless (v : Document) : Prop :=
  v.member? ("name" : Text) = none ∨ v.member? ("name" : Text) = some .null

/-- The hints give different names to the reference at an index. -/
def NamedTwice (hs : List (Int × List Hint)) (i : Nat) : Prop :=
  ∃ a b, ((i : Int), a) ∈ namings hs ∧ ((i : Int), b) ∈ namings hs ∧ a ≠ b

/-- The reference at an index has no name of its own and several from hints. -/
def NamedByOrder (d : Document) (hs : List (Int × List Hint)) (i : Nat) : Prop :=
  (∃ v, (referenceRecords d)[i]? = some v ∧ Nameless v) ∧ NamedTwice hs i

theorem referenceItems_rearranged (h : d.Rearranged e) :
    List.Forall₂ Rearranged (referenceItems d) (referenceItems e) := by
  unfold referenceItems
  rcases rel_cases (h.member? ("references" : Text)) with ⟨hd, he⟩ | ⟨v, w, hd, he, same⟩
  · rw [hd, he]
    exact .nil
  · rw [hd, he]
    exact same.items?

theorem nameless_of_describedBy {v : Document} {own : Reference} (described : own.DescribedBy v)
    (none : own.name = none) : Nameless v := by
  obtain ⟨ms, rfl, -, -, -, name⟩ := described
  rw [none] at name
  exact name

/-- Both references have what their records say, and a name of their own if there is one. -/
theorem NamedBy.rearranged {names names' : List (Int × Text)} {v w : Document} {i : Nat}
    {r s : Reference} (named : NamedBy names (v, i) r) (named' : NamedBy names' (w, i) s)
    (same : v.Rearranged w) (perm : names.Perm names') :
    r.value = s.value ∧ r.apTracking = s.apTracking ∧ r.pc = s.pc ∧
      (r.name = s.name ∨ Nameless v ∧
        ∃ a b, ((i : Int), a) ∈ names ∧ ((i : Int), b) ∈ names ∧ a ≠ b) := by
  obtain ⟨own, described, rfl⟩ := named
  obtain ⟨own', described', rfl⟩ := named'
  have one : own' = own := by
    have found := Reference.check_eq_valid.mpr (described.rearranged same)
    exact Checked.valid.inj ((Reference.check_eq_valid.mpr described').symm.trans found)
  subst one
  refine ⟨rfl, rfl, rfl, ?_⟩
  by_cases one : ∀ a b, ((i : Int), a) ∈ names → ((i : Int), b) ∈ names → a = b
  · left
    simp only [Reference.named, lookup_of_perm perm one]
  · cases name : own'.name with
    | some t =>
      left
      simp [Reference.named, name]
    | none =>
      right
      refine ⟨nameless_of_describedBy described name, ?_⟩
      simpa only [not_forall, exists_prop] using one

theorem Loads.reference {p : Program} (h : Loads d entrypoint expected p) {i : Nat} {r : Reference}
    (found : p.references.references[i]? = some r) :
    ∃ v, (referenceRecords d)[i]? = some v ∧ NamedBy (namings p.hints) (v, i) r := by
  obtain ⟨⟨v, j⟩, hv, named⟩ := getElem?_of_forall₂ h.references found
  rw [List.getElem?_zipIdx, Option.map_eq_some_iff] at hv
  obtain ⟨v', hv', same⟩ := hv
  obtain ⟨rfl, rfl⟩ := Prod.mk.inj same
  exact ⟨v', hv', by simpa using named⟩

theorem Loads.size {p : Program} (h : Loads d entrypoint expected p) :
    p.references.size = (referenceRecords d).length := by
  have length := h.references.length_eq
  rw [List.length_zipIdx] at length
  exact length.symm

/-! ## Programs -/

/-- The programs are alike, their references left out. -/
structure AlikeApart (p q : Program) : Prop where
  prime : p.prime = q.prime
  builtins : p.builtins = q.builtins
  data : p.data = q.data
  main : p.main = q.main
  hints : Matched EntryAlike p.hints q.hints
  identifiers : p.identifiers.Perm q.identifiers

theorem exists_references {names : List (Int × Text)} {rs : List Reference}
    (h : d.Rearranged e) (names' : List (Int × Text))
    (named : List.Forall₂ (NamedBy names) (referenceRecords d).zipIdx rs) :
    ∃ rs', List.Forall₂ (NamedBy names') (referenceRecords e).zipIdx rs' := by
  have records := referenceItems_rearranged (part_rearranged h "reference_manager")
  rw [exists_forall₂_iff]
  rintro ⟨w, i⟩ hw
  rw [List.mem_zipIdx_iff_getElem?] at hw
  obtain ⟨v, hv, same⟩ := getElem?_of_forall₂ records hw
  obtain ⟨r, -, own, described, -⟩ :=
    exists_right_of_forall₂ named (v, i) (List.mem_zipIdx_iff_getElem?.mpr hv)
  exact ⟨_, own, described.rearranged same, rfl⟩

theorem Loads.rearranged {p : Program} (loads : Loads d entrypoint expected p)
    (h : d.Rearranged e) : ∃ q, Loads e entrypoint expected q ∧ AlikeApart p q := by
  obtain ⟨symbols, perm, hsymbols⟩ := symbols_rearranged h loads.symbols
  obtain ⟨hints, hhints, alike⟩ :=
    loads.hints.rearranged (part_rearranged h "hints").members?
  obtain ⟨references, hreferences⟩ :=
    exists_references h (namings hints) loads.references
  have names : (p.identifiers.map Prod.fst).Nodup := (loads.namesDistinct h.1).identifiers
  have main : entryPc? p.identifiers entrypoint = entryPc? symbols entrypoint := by
    unfold entryPc?
    rw [lookup_of_perm perm]
    intro a b ha hb
    exact Option.some.inj ((lookup_of_mem names ha).symm.trans (lookup_of_mem names hb))
  have size : references.length = p.references.size := by
    rw [loads.size, ← hreferences.length_eq, List.length_zipIdx]
    exact (referenceItems_rearranged (part_rearranged h "reference_manager")).length_eq.symm
  refine ⟨⟨p.prime, p.builtins, p.data, p.main, hints, ⟨references⟩, symbols⟩, ?_,
    rfl, rfl, rfl, rfl, alike, perm⟩
  exact {
    layout := loads.layout.rearranged h
    prime := (part_rearranged h "prime").integer ▸ loads.prime
    one_lt := loads.one_lt
    expected := loads.expected
    data := words_rearranged h loads.data
    symbols := hsymbols
    hints := hhints
    references := hreferences
    named := by
      show NamedBelow references.length hints
      rw [size, namedBelow_iff_namings]
      intro n hn
      exact namedBelow_iff_namings.mp loads.named n ((namings_perm alike).mem_iff.mpr hn)
    builtins := loads.builtins.trans (builtins_rearranged (part_rearranged h "builtins"))
    main := loads.main.trans main }

theorem Loads.agreesUpToNames {p q : Program} (loads : Loads d entrypoint expected p)
    (loads' : Loads e entrypoint expected q) (h : d.Rearranged e) (alike : AlikeApart p q) :
    p.AgreesUpToNames (NamedByOrder d p.hints) q := by
  have records := referenceItems_rearranged (part_rearranged h "reference_manager")
  exact {
    prime := alike.prime
    builtins := alike.builtins
    data := alike.data
    main := alike.main
    hints := by
      refine agreeBy_of_matched (alike.hints.imp fun x y same => ?_) loads.hints.distinct
      exact ⟨same.1, Hint.forall₂_agree_iff.mpr (same.2.imp fun _ _ alike => alike.agree)⟩
    identifiers := agreeBy_of_perm alike.identifiers (loads.namesDistinct h.1).identifiers
    size := by
      rw [loads.size, loads'.size]
      exact records.length_eq
    references := by
      intro i r s hr hs
      obtain ⟨v, hv, named⟩ := loads.reference hr
      obtain ⟨w, hw, named'⟩ := loads'.reference hs
      obtain ⟨v', hv', same⟩ := getElem?_of_forall₂ records hw
      obtain rfl : v' = v := Option.some.inj (hv'.symm.trans hv)
      obtain ⟨value, tracking, pc, name⟩ :=
        named.rearranged named' same (namings_perm alike.hints)
      refine ⟨value, tracking, pc, name.imp_right ?_⟩
      rintro ⟨nameless, twice⟩
      exact ⟨⟨v', hv, nameless⟩, twice⟩ }

theorem load_reordered (room : Room) (distinct : d.KeysDistinct) (reordered : d.Reordered e)
    (entrypoint : Text) (expected : Option Int) :
    ((∃ p, (load room d entrypoint expected).outcome = .ok p) ↔
      ∃ q, (load room e entrypoint expected).outcome = .ok q) ∧
    ∀ p q, (load room d entrypoint expected).outcome = .ok p →
      (load room e entrypoint expected).outcome = .ok q →
        p.AgreesUpToNames (NamedByOrder d p.hints) q ∧
        ((∀ i, ¬ NamedByOrder d p.hints i) → p.agree q = true) := by
  have h : d.Rearranged e := ⟨distinct, reordered⟩
  simp only [load_eq_ok_iff]
  refine ⟨⟨?_, ?_⟩, ?_⟩
  · rintro ⟨p, loads⟩
    obtain ⟨q, loads', -⟩ := loads.rearranged h
    exact ⟨q, loads'⟩
  · rintro ⟨q, loads⟩
    obtain ⟨p, loads', -⟩ := loads.rearranged h.symm
    exact ⟨p, loads'⟩
  · intro p q loads loads'
    obtain ⟨q', loads'', alike⟩ := loads.rearranged h
    obtain rfl := loads''.unique loads'
    have agrees := loads.agreesUpToNames loads' h alike
    exact ⟨agrees, agrees.agree⟩

/-! ## A reference with two names -/

/-- An artifact with a hint that gives two names to a reference without one. -/
def twoNames (a b : Text) : Document := .map [
  ("prime", .int 17),
  ("data", .list []),
  ("identifiers", .map []),
  ("hints", .map [("7", .list [.map [
    ("code", .str "pass"),
    ("flow_tracking_data", .map [
      ("ap_tracking", sampleTracking),
      ("reference_ids", .map [(a, .int 0), (b, .int 0)])])]])]),
  ("reference_manager", .map [
    ("references", .list [
      .map [("ap_tracking_data", sampleTracking), ("value", .str "[cast(fp, felt*)]")]])])]

/-- Its program, in which the first name counts. -/
def twoNamesProgram (a b : Text) : Program where
  prime := 17
  hints := [(7, [⟨"pass", [], ⟨0, 0⟩, [(a, 0), (b, 0)]⟩])]
  references := ⟨[⟨"[cast(fp, felt*)]", ⟨0, 0⟩, none, some a⟩]⟩

theorem twoNames_isArtifact (a b : Text) : IsArtifact (twoNames a b) :=
  isArtifact_of_members rfl (.inr (.inl ⟨_, rfl⟩)) rfl rfl rfl (.of_found rfl ⟨_, rfl⟩)
    (.of_absent rfl) rfl

theorem twoNames_loads (a b : Text) :
    (load .standard (twoNames a b) "main" none).outcome = .ok (twoNamesProgram a b) := by
  have layout := twoNames_isArtifact a b
  have one_lt : (1 : Int) < 17 := by decide
  exact load_eq_ok_iff.mpr {
    layout
    prime := rfl
    one_lt
    expected := by simp
    data := (words_eq_ok_iff one_lt).mp rfl
    symbols := (identifiers_eq_ok_iff one_lt).mp rfl
    hints := hints_eq_ok_iff.mp rfl
    references := (references_eq_ok_iff layout.listed).mp rfl
    named := checkReferenceIds_eq_ok_iff.mp rfl
    builtins := rfl
    main := rfl }

theorem twoNames_keysDistinct {a b : Text} (differ : a ≠ b) : (twoNames a b).KeysDistinct := by
  simp [twoNames, sampleTracking, differ]

theorem twoNames_reordered (a b : Text) : (twoNames a b).Reordered (twoNames b a) := by
  have ids : Reordered (.map [(a, .int 0), (b, .int 0)]) (.map [(b, .int 0), (a, .int 0)]) :=
    Reordered.of_perm (.swap ..)
  have flow := ids.member [(("ap_tracking" : Text), sampleTracking)] "reference_ids" []
  have hint := flow.member [(("code" : Text), .str "pass")] "flow_tracking_data" []
  have hints := (hint.item [] []).member [] "7" []
  exact hints.member [("prime", .int 17), ("data", .list []), ("identifiers", .map [])] "hints" _

/-- The order of the two names decides which the reference has. -/
theorem load_reordered_twoNames :
    (twoNames "x" "y").KeysDistinct ∧ (twoNames "x" "y").Reordered (twoNames "y" "x") ∧
      ∃ p q, (load .standard (twoNames "x" "y") "main" none).outcome = .ok p ∧
        (load .standard (twoNames "y" "x") "main" none).outcome = .ok q ∧
        p.AgreesUpToNames (NamedByOrder (twoNames "x" "y") p.hints) q ∧ p.agree q = false := by
  have distinct := twoNames_keysDistinct (a := "x") (b := "y") (by decide)
  have reordered := twoNames_reordered "x" "y"
  have both := (load_reordered .standard distinct reordered "main" none).2 _ _
    (twoNames_loads "x" "y") (twoNames_loads "y" "x")
  exact ⟨distinct, reordered, _, _, twoNames_loads "x" "y", twoNames_loads "y" "x", both.1, rfl⟩

end Artifact

end FieldProgram

import FieldProgram.Proofs.Artifact.RepeatedKey
import FieldProgram.Proofs.Artifact.Source
import FieldProgram.Proofs.Related
import FieldProgram.Proofs.Settings.Load
import FieldProgram.Proofs.Text.Decoded
import FieldProgram.Proofs.Yaml.JsonTokens
import FieldProgram.Proofs.Yaml.Members

/-!
# Settings and artifacts apart

An object of JSON is a mapping of YAML, if YAML can read it at all, and the mapping has the keys of
the object. Settings know none of the members that every artifact has, so nothing is both.

* `Yaml.keys_of_object`, `Yaml.items_of_list`: an object and a list, read as YAML;
* `Settings.Holds.known`, `Settings.Holds.items_eq_nil`: the same for octets that give settings;
* `Settings.not_isArtifact`: octets that give settings are no artifact.
-/

namespace FieldProgram

/-! ## Objects as mappings -/

namespace Yaml

variable {room : Room} {levels : Nat} {chars text : List Char} {v : Value}

/-- The value of an object that is not empty is a mapping, with the keys of the object. -/
theorem keys_of_object {ms : List (Text × Document)}
    (spelled : Json.SpellsText levels (chars.map .char) (.map ms)) (full : ms ≠ [])
    (marked : text = plainBreaksOf chars ∨ text = '\ufeff' :: plainBreaksOf chars)
    (value : read room text = .ok v) :
    ∃ keys ns, List.Forall₂ ReadsAs (ms.map Prod.fst) keys ∧ layer v = .map ns ∧
      ∀ l, l ∈ ns.map Prod.fst ↔ ∃ key ∈ keys, l = .text key := by
  obtain ⟨ts, tokens, value⟩ := Except.bind_eq_ok.mp value
  obtain ⟨r, composed, value⟩ := Except.bind_eq_ok.mp value
  obtain ⟨keys, us, alike, members, rfl⟩ := tokens_of_object spelled full marked tokens
  obtain ⟨root, g, rfl, keyed⟩ := nodesOfTokens_members members composed
  obtain ⟨ns, mapping, labels⟩ := Graph.value_keys keyed value
  exact ⟨keys, ns, alike, mapping, labels⟩

/-- The value of a list that is not empty is a list that is not vacant. -/
theorem items_of_list {xs : List Document}
    (spelled : Json.SpellsText levels (chars.map .char) (.list xs)) (full : xs ≠ [])
    (marked : text = plainBreaksOf chars ∨ text = '\ufeff' :: plainBreaksOf chars)
    (value : read room text = .ok v) : v.isVacant = false ∧ ∃ vs, layer v = .list vs := by
  obtain ⟨ts, tokens, value⟩ := Except.bind_eq_ok.mp value
  obtain ⟨r, composed, value⟩ := Except.bind_eq_ok.mp value
  obtain ⟨us, items, rfl⟩ := tokens_of_list spelled full marked tokens
  obtain ⟨root, g, rfl, itemed⟩ := nodesOfTokens_items items composed
  exact Graph.value_items itemed value

/-- Only line breaks are written otherwise where all of them are line feeds. -/
theorem mem_plainBreaksOf {ch : Char} (visible : ch ≠ '\r' ∧ ch ≠ '\n') (mem : ch ∈ chars) :
    ch ∈ plainBreaksOf chars := by
  induction chars using plainBreaksOf.induct with
  | case1 => exact mem
  | case2 cs ih =>
    have later : ch ∈ cs := by simpa [visible.1, visible.2] using mem
    rw [plainBreaksOf]
    exact List.mem_cons_of_mem _ (ih later)
  | case3 cs alone ih =>
    have later : ch ∈ cs := by simpa [visible.1] using mem
    rw [plainBreaksOf]
    · exact List.mem_cons_of_mem _ (ih later)
    · exact alone
  | case4 c cs together alone ih =>
    rw [plainBreaksOf]
    · exact List.mem_cons.mpr ((List.mem_cons.mp mem).imp_right ih)
    · exact together
    · exact alone

/-- A text that is read has no nulls. -/
theorem no_null_of_read (value : read room (plainBreaksOf chars) = .ok v) : '\x00' ∉ chars := by
  intro null
  have there := mem_plainBreaksOf (by decide) null
  obtain ⟨ts, tokens, -⟩ := Except.bind_eq_ok.mp value
  unfold Yaml.tokens at tokens
  split at tokens
  · cases tokens
  · rename_i allowed
    exact absurd (List.find?_eq_none.mp allowed _ there) (by decide)

/-- A vacant mapping has no members. -/
theorem members_of_isVacant {ns : List (Label × Value)} (vacant : v.isVacant = true)
    (mapping : layer v = .map ns) : ns = [] := by
  obtain ⟨cs, root⟩ := v
  cases root with
  | atom a => cases a <;> cases mapping
  | collection id =>
    simp only [Layered.layer, Value.outer] at mapping
    simp only [Value.isVacant] at vacant
    cases there : collectionOf cs id with
    | map members =>
      rw [there] at mapping vacant
      obtain rfl := Layer.map.inj mapping
      rw [List.isEmpty_iff.mp vacant]
      rfl
    | list items =>
      rw [there] at mapping
      cases mapping
    | set keys =>
      rw [there] at mapping
      cases mapping
    | pairs entries =>
      rw [there] at mapping
      cases mapping

end Yaml

/-! ## Octets -/

namespace Settings

variable {room within : Room} {octets : List UInt8} {v : Yaml.Value} {d : Document}

/-- Octets that hold a document and a value of YAML: one text is both, but for a byte order mark. -/
theorem Holds.spelled (held : Holds room octets v)
    (document : Artifact.Content.document within (.octets octets) = .ok d) :
    ∃ chars text, Json.SpellsText within.brackets (chars.map .char) d ∧
      (text = Yaml.plainBreaksOf chars ∨ text = '\ufeff' :: Yaml.plainBreaksOf chars) ∧
      Yaml.read room text = .ok v := by
  obtain ⟨cs, decoded, value⟩ := held
  obtain ⟨chars, sniffed, marked⟩ : ∃ chars,
      Text.decodeSniffed octets = .ok (chars.map .char) ∧
        (Yaml.plainBreaksOf cs = Yaml.plainBreaksOf chars ∨
          Yaml.plainBreaksOf cs = '\ufeff' :: Yaml.plainBreaksOf chars) := by
    rcases Text.decodeSniffed_of_decode decoded (Yaml.no_null_of_read value) with
      ⟨text, rfl, sniffed⟩ | ⟨-, sniffed⟩
    · exact ⟨text, sniffed, .inr rfl⟩
    · exact ⟨cs, sniffed, .inl rfl⟩
  refine ⟨chars, _, ?_, marked, value⟩
  simp only [Artifact.Content.document, sniffed] at document
  obtain ⟨tree, spelled, settled⟩ :=
    Json.read_eq_ok_iff.mp (Artifact.readText_eq_ok_iff.mp document)
  obtain ⟨-, -, same⟩ := Json.settle_rejectRepeated_eq_ok_iff.mp settled
  exact same ▸ spelled

/-- Of an object that gives settings, no visible key is unknown to settings. -/
theorem Holds.known {s : Settings} {ms : List (Text × Document)} {name : String}
    (held : Holds room octets v) (gives : Gives v s)
    (document : Artifact.Content.document within (.octets octets) = .ok (.map ms))
    (visible : ∀ x ∈ (name : Text).codes, Json.Visible x)
    (unknown : name ∉ ["entrypoint", "expected_prime", "logging"]) :
    ms.lookup (name : Text) = none := by
  by_contra there
  obtain ⟨w, found⟩ := Option.ne_none_iff_exists'.mp there
  have given : (name : Text) ∈ ms.map Prod.fst :=
    List.mem_map.mpr ⟨_, Entries.mem_of_lookup found, rfl⟩
  have full : ms ≠ [] := by
    rintro rfl
    cases given
  obtain ⟨chars, text, spelled, marked, value⟩ := held.spelled document
  obtain ⟨keys, ns, alike, mapping, labels⟩ := Yaml.keys_of_object spelled full marked value
  obtain ⟨key, mem, reads⟩ := exists_right_of_forall₂ alike _ given
  have named : Label.text name ∈ ns.map Prod.fst :=
    (labels _).mpr ⟨key, mem, congrArg Label.text (reads visible).symm⟩
  rcases gives with ⟨vacant, -⟩ | ⟨-, -, layout, -⟩
  · obtain rfl := Yaml.members_of_isVacant vacant mapping
    cases named
  · obtain ⟨ns', mapping', inLayout⟩ := violations_eq_nil_iff.mp layout
    obtain rfl := Layer.map.inj (mapping.symm.trans mapping')
    obtain ⟨m, mem, same⟩ := List.mem_map.mp named
    obtain ⟨other, known, named⟩ := inLayout.known m mem
    obtain rfl : name = other := by simpa [same, Label.isNamed] using named
    exact unknown known

/-- A list that gives settings is empty. -/
theorem Holds.items_eq_nil {s : Settings} {xs : List Document} (held : Holds room octets v)
    (gives : Gives v s)
    (document : Artifact.Content.document within (.octets octets) = .ok (.list xs)) : xs = [] := by
  by_contra full
  obtain ⟨chars, text, spelled, marked, value⟩ := held.spelled document
  obtain ⟨filled, vs, list⟩ := Yaml.items_of_list spelled full marked value
  rcases gives with ⟨vacant, -⟩ | ⟨-, ⟨ms, mapping⟩, -⟩
  · cases filled.symm.trans vacant
  · cases list.symm.trans mapping

/-- Octets that give settings are no artifact. They lack what artifacts have, so that nothing nested
is to be shown of them. -/
theorem not_isArtifact {s : Settings} (held : Holds room octets v) (gives : Gives v s)
    (document : Artifact.Content.document within (.octets octets) = .ok d) :
    ¬ Artifact.IsArtifact d ∧ ∀ x ∈ Artifact.violations d, x.breach.levels = 0 := by
  constructor
  · rintro ⟨ms, rfl, artifact⟩
    obtain ⟨prime, found, -⟩ := artifact.prime
    cases found.symm.trans (held.known gives document (by decide) (by decide))
  · intro x hx
    have unknown : ∀ m ∈ Artifact.layout.members, (∀ x ∈ (m.1 : Text).codes, Json.Visible x) ∧
        m.1 ∉ ["entrypoint", "expected_prime", "logging"] := by decide
    refine Schema.levels_of_violations ?_ ?_ x ((List.mergeSort_perm _ _).mem_iff.mp hx)
    · intro m mem
      obtain ⟨visible, unknown⟩ := unknown m mem
      cases d with
      | map ms =>
        exact (Document.member?_labelled m.1 ms).trans (held.known gives document visible unknown)
      | _ => rfl
    · cases d with
      | map ms => exact .inr ⟨ms, rfl⟩
      | list xs =>
        obtain rfl := held.items_eq_nil gives document
        exact .inl rfl
      | _ => exact .inl rfl

end Settings

end FieldProgram

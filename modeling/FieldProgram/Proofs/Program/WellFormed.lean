import FieldProgram.Proofs.Artifact.Load

/-!
# Loaded programs are well formed

What the sections of an artifact promise about a program, all sections taken together: field
elements belong to the prime of the program, addresses and program counters are not negative, and
hints name references that are there.

* `Artifact.load_wellFormed`: the promise is kept by every program that is loaded.
-/

namespace FieldProgram

/-! ## The promise -/

structure ApTracking.WellFormed (t : ApTracking) : Prop where
  group : 0 ≤ t.group
  offset : 0 ≤ t.offset

/-- A hint of a program with `count` references. -/
structure Hint.WellFormed (count : Nat) (h : Hint) : Prop where
  tracking : h.apTracking.WellFormed
  named : ∀ id ∈ h.referenceIds, 0 ≤ id.2 ∧ id.2 < (count : Int)

structure Reference.WellFormed (r : Reference) : Prop where
  tracking : r.apTracking.WellFormed
  pc : ∀ pc, r.pc = some pc → 0 ≤ pc

/-- A symbol of a program over a prime. -/
structure Identifier.WellFormed (prime : Int) (i : Identifier) : Prop where
  pc : ∀ pc, i.pc = some pc → 0 ≤ pc
  value : ∀ f, i.value = some f → Word.WellFormed prime (.felt f)

structure Program.WellFormed (p : Program) : Prop where
  one_lt : 1 < p.prime
  data : ∀ w ∈ p.data, w.WellFormed p.prime
  symbols : ∀ i ∈ p.identifiers, i.2.WellFormed p.prime
  distinct : (p.hints.map Prod.fst).Nodup
  hints : ∀ entry ∈ p.hints, 0 ≤ entry.1 ∧ entry.2 ≠ [] ∧
    ∀ h ∈ entry.2, h.WellFormed p.references.size
  references : ∀ r ∈ p.references.references, r.WellFormed

/-! ## Records -/

theorem ApTracking.DescribedBy.wellFormed {t : ApTracking} {d : Document}
    (h : t.DescribedBy d) : t.WellFormed := by
  obtain ⟨ms, -, ⟨_, -, -, group⟩, ⟨_, -, -, offset⟩⟩ := h
  exact ⟨group, offset⟩

theorem Holds.nonneg {name : Text} {ms : List (Text × Document)} {o : Option Int}
    (h : Holds name ms IsNatural o) : ∀ n, o = some n → 0 ≤ n := by
  rintro n rfl
  obtain ⟨d, -, -, nonneg⟩ := h
  exact nonneg

theorem Hint.DescribedBy.tracking {h : Hint} {d : Document} (described : h.DescribedBy d) :
    h.apTracking.WellFormed := by
  obtain ⟨ms, -, -, -, fs, -, ⟨v, -, tracking⟩, -⟩ := described
  exact tracking.wellFormed

theorem Hint.DescribedBy.ids_nonneg {h : Hint} {d : Document} (described : h.DescribedBy d) :
    ∀ id ∈ h.referenceIds, 0 ≤ id.2 := by
  obtain ⟨ms, -, -, -, fs, -, -, ⟨-, none⟩ | ⟨-, nonneg⟩⟩ := described
  · rw [none]
    simp
  · exact nonneg

theorem Reference.DescribedBy.wellFormed {r : Reference} {d : Document} (h : r.DescribedBy d) :
    r.WellFormed := by
  obtain ⟨ms, -, ⟨v, -, tracking⟩, pc, -, -⟩ := h
  exact ⟨tracking.wellFormed, pc.nonneg⟩

namespace Artifact

theorem NamedBy.wellFormed {names : List (Int × Text)} {item : Document × Nat} {r : Reference}
    (h : NamedBy names item r) : r.WellFormed := by
  obtain ⟨own, described, rfl⟩ := h
  obtain ⟨tracking, pc⟩ := described.wellFormed
  exact ⟨tracking, pc⟩

theorem SymbolDescribedBy.wellFormed {prime : Int} {i : Identifier} {d : Document}
    (h : SymbolDescribedBy prime i d) : i.WellFormed prime := by
  obtain ⟨⟨rpc, type, rvalue⟩, ⟨ms, -, -, pc, -, -⟩, same, -, value⟩ := h
  refine ⟨fun n hn => pc.nonneg n (same ▸ hn), fun f hf => ?_⟩
  rw [hf] at value
  obtain ⟨represents⟩ := value
  obtain ⟨modulus, below⟩ := represents.bounds
  exact ⟨modulus, by omega, below⟩

/-! ## Programs -/

theorem Loads.wellFormed {d : Document} {entrypoint : Text} {expected : Option Int} {p : Program}
    (h : Loads d entrypoint expected p) : p.WellFormed where
  one_lt := h.one_lt
  data := by
    intro w hw
    obtain ⟨v, -, hv⟩ := exists_left_of_forall₂ h.data w hw
    exact hv.wellFormed
  symbols := by
    intro i hi
    obtain ⟨m, -, -, hm⟩ := exists_left_of_forall₂ h.symbols i hi
    exact hm.wellFormed
  distinct := h.hints.distinct
  hints := by
    intro entry hentry
    obtain ⟨some_hint, m, -, described⟩ := h.hints.entry entry hentry
    refine ⟨described.1.nonneg, some_hint, fun hint hmem => ?_⟩
    obtain ⟨v, hv⟩ := described.hint hint hmem
    exact ⟨hv.tracking, fun id hid => ⟨hv.ids_nonneg id hid, h.named entry hentry hint hmem id hid⟩⟩
  references := by
    intro r hr
    obtain ⟨item, -, hitem⟩ := exists_left_of_forall₂ h.references r hr
    exact hitem.wellFormed

theorem entryPc?_eq_some_iff {symbols : List (Text × Identifier)} {entrypoint : Text} {pc : Int} :
    entryPc? symbols entrypoint = some pc ↔
      ∃ i, symbols.lookup (entryName entrypoint) = some i ∧ i.pc = some pc := by
  rw [entryPc?, Option.bind_eq_some_iff]

theorem load_wellFormed {room : Room} {d : Document} {entrypoint : Text} {expected : Option Int}
    {p : Program} (h : (load room d entrypoint expected).outcome = .ok p) :
    p.WellFormed ∧ (∀ q, expected = some q → p.prime = q) ∧
      p.data.length = (dataItems d).length ∧
      (p.main = none ∨ ∃ i pc, p.identifiers.lookup (("__main__." : Text) ++ entrypoint) = some i ∧
        i.pc = some pc ∧ p.main = some pc) := by
  have loads := load_eq_ok_iff.mp h
  refine ⟨loads.wellFormed, fun q hq => (loads.expected q hq).symm, loads.data.length_eq.symm, ?_⟩
  cases hmain : p.main with
  | none => exact .inl rfl
  | some pc =>
    obtain ⟨i, hi, hpc⟩ := entryPc?_eq_some_iff.mp (loads.main.symm.trans hmain)
    exact .inr ⟨i, pc, hi, hpc, rfl⟩

/-- The sample loads where its prime is expected, with a main part. -/
theorem load_wellFormed_sample :
    (load .standard sample "main" (some 17)).outcome = .ok sampleProgram ∧
      sampleProgram.WellFormed ∧ sampleProgram.prime = 17 ∧
      sampleProgram.data.length = (dataItems sample).length ∧
      ∃ i pc, sampleProgram.identifiers.lookup (("__main__." : Text) ++ "main") = some i ∧
        i.pc = some pc ∧ sampleProgram.main = some pc := by
  have loads : Loads sample "main" (some 17) sampleProgram :=
    { sample_loads with expected := fun q hq => (Option.some.inj hq).symm }
  have loaded : (load .standard sample "main" (some 17)).outcome = .ok sampleProgram :=
    load_eq_ok_iff.mpr loads
  obtain ⟨wellFormed, prime, words, main⟩ := load_wellFormed loaded
  exact ⟨loaded, wellFormed, prime 17 rfl, words, main.resolve_left (by simp [sampleProgram])⟩

end Artifact

end FieldProgram

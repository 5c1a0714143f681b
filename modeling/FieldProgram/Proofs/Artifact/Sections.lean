import FieldProgram.Proofs.Artifact.Layout
import FieldProgram.Proofs.Artifact.Settled
import FieldProgram.Proofs.Document.Short
import FieldProgram.Proofs.Record.Described
import FieldProgram.Proofs.Related
import FieldProgram.Proofs.Word.Described

/-!
# What the sections of an artifact hold

For each section but the hints: which results it has, stated on its values, and that whatever else
it holds is refused.

* `prime_settles`: the prime, which alone of these may run into the digit limit;
* `words_eq_ok_iff`, `identifiers_eq_ok_iff`, `references_eq_ok_iff`: the results;
* `checkReferenceIds_eq_ok_iff`: the references that hints name are there.
-/

namespace FieldProgram

open Numeral

namespace Artifact

/-! ## Prime -/

theorem prime_eq_ok_iff {v : Document} {p : Int} :
    prime v = .ok p ↔ v.integer = .ok p ∧ 1 < p := by
  unfold prime
  cases v.integer with
  | error fault => simp [LoadError.fail_ne_ok]
  | ok n =>
    by_cases h : n ≤ 1
    · simp only [if_pos h, LoadError.fail_ne_ok, Except.ok.injEq, false_iff, not_and]
      rintro rfl
      omega
    · simp only [if_neg h, Except.ok.injEq]
      constructor
      · rintro rfl
        exact ⟨rfl, by omega⟩
      · exact And.left

/-- The message about a prime that is too small has the prime in it. -/
theorem primeTooSmall_worded_iff {p : Int} :
    (LoadError.primeTooSmall p).Worded ↔ Document.ShortInteger p := by
  constructor
  · rintro ⟨s, hs⟩
    obtain ⟨detail, hdetail, -⟩ := Except.bind_eq_ok.mp hs
    obtain ⟨t, ht, -⟩ := Except.bind_eq_ok.mp hdetail
    exact (decimalText_eq_ok_iff.mp ht).1
  · intro short
    obtain ⟨t, ht⟩ := short.text
    exact LoadError.worded_of ⟨_, Except.bind_eq_ok.mpr ⟨t, ht, rfl⟩⟩ ⟨_, rfl⟩

theorem prime_settles (v : Document) :
    Settles (∃ p, v.integer = .ok p ∧ 1 < p)
      (∃ p, v.integer = .ok p ∧ p ≤ 1 ∧ ¬ Document.ShortInteger p) .malformed (prime v) := by
  unfold prime
  cases hv : v.integer with
  | error fault =>
    have worded : (LoadError.badPrime fault).Worded := ⟨_, rfl⟩
    show Settles _ _ _ (LoadError.badPrime fault).fail
    rw [LoadError.fail_eq worded]
    exact .rejected _ rfl (by rintro ⟨p, ⟨⟩, -⟩) (by rintro ⟨p, ⟨⟩, -⟩)
  | ok p =>
    by_cases small : p ≤ 1
    · have stuck : ¬ ∃ q, (Except.ok p : Except LiteralFault Int) = .ok q ∧ 1 < q := by
        rintro ⟨q, ⟨⟩, large⟩
        omega
      simp only [if_pos small]
      by_cases short : Document.ShortInteger p
      · rw [LoadError.fail_eq (primeTooSmall_worded_iff.mpr short)]
        refine .rejected _ rfl stuck ?_
        rintro ⟨q, ⟨⟩, -, long⟩
        exact long short
      · unfold LoadError.fail
        split
        · rename_i s hs
          exact absurd (primeTooSmall_worded_iff.mp ⟨s, hs⟩) short
        · exact .limited _ ⟨p, rfl, small, short⟩
    · simp only [if_neg small]
      refine .accepted p ⟨p, rfl, by omega⟩ ?_
      rintro ⟨q, ⟨⟩, small', -⟩
      exact small small'

theorem checkPrime_eq_ok_iff {p : Int} {expected : Option Int} :
    checkPrime p expected = .ok () ↔ ∀ q, expected = some q → q = p := by
  cases expected with
  | none => simp [checkPrime]
  | some q =>
    by_cases same : q = p
    · simp [checkPrime, same]
    · simp [checkPrime, same, LoadError.fail_ne_ok]

theorem checkPrime_refuses (p : Int) (expected : Option Int) :
    Refuses .primeMismatch (checkPrime p expected) := by
  unfold checkPrime
  split
  · exact refuses_ok _ _
  · split
    · exact refuses_ok _ _
    · exact refuses_fail ⟨_, rfl⟩ rfl

/-! ## Data -/

/-- The word of an item of data at its index. -/
def wordAt (prime : Int) (item : Document × Nat) : Except LoadFailure Word :=
  match Word.decode item.1 prime with
  | .error e => (LoadError.badWord item.2 e).fail
  | .ok w => .ok w

theorem wordsFrom_eq_mapM (prime : Int) (index : Nat) (ds : List Document) :
    wordsFrom prime index ds = (ds.zipIdx index).mapM (wordAt prime) := by
  induction ds generalizing index with
  | nil => rfl
  | cons d ds ih =>
    rw [wordsFrom, List.zipIdx_cons, Except.mapM_cons, ← ih (index + 1), wordAt]
    cases Word.decode d prime with
    | ok w => cases wordsFrom prime (index + 1) ds <;> rfl
    | error e =>
      cases he : (LoadError.badWord index e).message <;> simp [LoadError.fail, he] <;> rfl

theorem wordAt_eq_ok_iff {prime : Int} (one_lt : 1 < prime) {item : Document × Nat} {w : Word} :
    wordAt prime item = .ok w ↔ w.DescribedBy prime item.1 := by
  rw [← Word.decode_eq_ok_iff one_lt, wordAt]
  cases Word.decode item.1 prime <;> simp [LoadError.fail_ne_ok]

theorem words_eq_ok_iff {prime : Int} (one_lt : 1 < prime) {d : Document} {ws : List Word} :
    words prime d = .ok ws ↔
      List.Forall₂ (fun v w => Word.DescribedBy prime w v) (d.items?.getD []) ws := by
  rw [words, wordsFrom_eq_mapM, Except.mapM_eq_ok_iff]
  simp only [wordAt_eq_ok_iff one_lt]
  exact forall₂_zipIdx (R := fun v w => Word.DescribedBy prime w v)

theorem words_refuses (prime : Int) (d : Document) : Refuses .malformed (words prime d) := by
  rw [words, wordsFrom_eq_mapM]
  refine refuses_mapM fun item _ => ?_
  unfold wordAt
  split
  · rename_i e he
    obtain ⟨s, hs⟩ := Word.text_of_decode he
    have worded : (LoadError.badWord item.2 e).Worded :=
      LoadError.worded_of ⟨_, Except.map_eq_ok.mpr ⟨s, hs, rfl⟩⟩ ⟨_, rfl⟩
    exact refuses_fail worded rfl
  · exact refuses_ok _ _

/-! ## Identifiers -/

/-- The record describes the symbol, its value reduced into the field of a modulus. -/
def SymbolDescribedBy (prime : Int) (i : Identifier) (d : Document) : Prop :=
  ∃ r : IdentifierRecord, r.DescribedBy d ∧ i.pc = r.pc ∧ i.type = r.type ∧
    Option.Rel (fun f n => Felt.Represents f prime n) i.value r.value

theorem reduce_eq_ok_iff {prime : Int} (one_lt : 1 < prime) {r : IdentifierRecord}
    {i : Identifier} :
    r.reduce (.int prime) = .ok i ↔ i.pc = r.pc ∧ i.type = r.type ∧
      Option.Rel (fun f n => Felt.Represents f prime n) i.value r.value := by
  obtain ⟨pc, type, value⟩ := r
  cases value with
  | none =>
    constructor
    · rintro ⟨⟩
      exact ⟨rfl, rfl, .none⟩
    · obtain ⟨_, _, value⟩ := i
      rintro ⟨rfl, rfl, ⟨⟩⟩
      rfl
  | some n =>
    rw [IdentifierRecord.reduce, Except.bind_eq_ok]
    simp only [Felt.reduceValues_eq_ok_iff one_lt]
    constructor
    · rintro ⟨f, hf, ⟨⟩⟩
      exact ⟨rfl, rfl, .some hf⟩
    · obtain ⟨_, _, value⟩ := i
      rintro ⟨rfl, rfl, ⟨hf⟩⟩
      exact ⟨_, hf, rfl⟩

theorem namedIdentifier_eq_ok_iff {prime : Int} (one_lt : 1 < prime) {m : Text × Document}
    {i : Text × Identifier} :
    namedIdentifier prime m = .ok i ↔ m.1 = i.1 ∧ SymbolDescribedBy prime i.2 m.2 := by
  obtain ⟨name, d⟩ := m
  obtain ⟨name', i⟩ := i
  rw [namedIdentifier, Except.map_eq_ok, identifier]
  simp only [Except.bind_eq_ok, checked_eq_ok_iff, IdentifierRecord.check_eq_valid,
    Except.mapError_eq_ok, reduce_eq_ok_iff one_lt, Prod.mk.injEq]
  constructor
  · rintro ⟨_, ⟨r, hr, parts⟩, rfl, rfl⟩
    exact ⟨rfl, r, hr, parts⟩
  · rintro ⟨rfl, r, hr, parts⟩
    exact ⟨i, ⟨r, hr, parts⟩, rfl, rfl⟩

theorem identifiers_eq_ok_iff {prime : Int} (one_lt : 1 < prime) {d : Document}
    {is : List (Text × Identifier)} :
    identifiers prime d = .ok is ↔
      List.Forall₂ (fun m i => m.1 = i.1 ∧ SymbolDescribedBy prime i.2 m.2)
        (d.members?.getD []) is := by
  rw [identifiers, Except.mapM_eq_ok_iff]
  simp only [namedIdentifier_eq_ok_iff one_lt]

/-- Every integer has a class, so that every record of a symbol has a symbol. -/
theorem exists_reduce {prime : Int} (one_lt : 1 < prime) (r : IdentifierRecord) :
    ∃ i, r.reduce (.int prime) = .ok i := by
  simp only [reduce_eq_ok_iff one_lt]
  cases r.value with
  | none => exact ⟨⟨r.pc, r.type, none⟩, rfl, rfl, .none⟩
  | some n =>
    obtain ⟨f, hf⟩ := Felt.exists_represents one_lt n
    exact ⟨⟨r.pc, r.type, some f⟩, rfl, rfl, .some hf⟩

theorem exists_symbol_iff {prime : Int} (one_lt : 1 < prime) {d : Document} :
    (∃ i, SymbolDescribedBy prime i d) ↔ ∃ r : IdentifierRecord, r.DescribedBy d := by
  constructor
  · rintro ⟨i, r, hr, -⟩
    exact ⟨r, hr⟩
  · rintro ⟨r, hr⟩
    obtain ⟨i, hi⟩ := exists_reduce one_lt r
    exact ⟨i, r, hr, (reduce_eq_ok_iff one_lt).mp hi⟩

theorem identifiers_refuses {prime : Int} (one_lt : 1 < prime) (d : Document) :
    Refuses .identifier (identifiers prime d) := by
  refine refuses_mapM fun m _ => ?_
  obtain ⟨name, d⟩ := m
  refine Refuses.map ?_ _
  intro f hf
  rcases Except.bind_eq_error.mp hf with hf | ⟨r, -, hf⟩
  · exact refuses_checked (.badIdentifier (some name)) (fun _ => ⟨_, rfl⟩)
      (fun _ => rfl) _ f hf
  · obtain ⟨i, hi⟩ := exists_reduce one_lt r
    rw [hi] at hf
    cases hf

/-! ## References -/

/-- The record at an index describes the reference, which may have its name from elsewhere. -/
def NamedBy (names : List (Int × Text)) (item : Document × Nat) (r : Reference) : Prop :=
  ∃ own : Reference, own.DescribedBy item.1 ∧ r = own.named (names.lookup (item.2 : Int))

/-- The reference of a record at its index. -/
def referenceAt (names : List (Int × Text)) (item : Document × Nat) :
    Except LoadFailure Reference :=
  (checked (.badListedReference item.2) (Reference.check item.1)).map
    (·.named (names.lookup (item.2 : Int)))

theorem referencesFrom_eq_mapM (names : List (Int × Text)) (index : Nat) (ds : List Document) :
    referencesFrom names index ds = (ds.zipIdx index).mapM (referenceAt names) := by
  induction ds generalizing index with
  | nil => rfl
  | cons d ds ih =>
    rw [referencesFrom, List.zipIdx_cons, Except.mapM_cons, ← ih (index + 1), referenceAt]
    cases checked (.badListedReference index) (Reference.check d) with
    | ok r => cases referencesFrom names (index + 1) ds <;> rfl
    | error f => rfl

theorem referenceAt_eq_ok_iff {names : List (Int × Text)} {item : Document × Nat}
    {r : Reference} : referenceAt names item = .ok r ↔ NamedBy names item r := by
  rw [referenceAt, Except.map_eq_ok]
  simp only [checked_eq_ok_iff, Reference.check_eq_valid]
  exact exists_congr fun own => and_congr_right fun _ => eq_comm

/-- The records of the references in an artifact. -/
def referenceItems (d : Document) : List Document :=
  ((d.member? ("references" : Text)).bind Document.items?).getD []

theorem references_eq_ok_iff {names : List (Int × Text)} {d : Document}
    (listed : ∃ fs, d = .map fs ∧ Has "references" fs IsList) {t : ReferenceTable} :
    references names d = .ok t ↔
      List.Forall₂ (NamedBy names) (referenceItems d).zipIdx t.references := by
  obtain ⟨fs, rfl, _, hrs, ds, rfl⟩ := listed
  have items : referenceItems (.map fs) = ds := by
    simp [referenceItems, Document.member?, Document.members?, hrs, Document.items?]
  simp only [references, hrs, items, Except.map_eq_ok, referencesFrom_eq_mapM,
    Except.mapM_eq_ok_iff, referenceAt_eq_ok_iff]
  constructor
  · rintro ⟨rs, h, rfl⟩
    exact h
  · exact fun h => ⟨t.references, h, rfl⟩

theorem exists_named_iff {names : List (Int × Text)} {item : Document × Nat} :
    (∃ r, NamedBy names item r) ↔ ∃ r : Reference, r.DescribedBy item.1 := by
  constructor
  · rintro ⟨_, own, h, -⟩
    exact ⟨own, h⟩
  · rintro ⟨own, h⟩
    exact ⟨_, own, h, rfl⟩

theorem references_refuses (names : List (Int × Text)) (d : Document) :
    Refuses .reference (references names d) := by
  unfold references
  split
  · split
    · refine Refuses.map ?_ _
      rw [referencesFrom_eq_mapM]
      refine refuses_mapM fun item _ => Refuses.map ?_ _
      exact refuses_checked (.badListedReference item.2) (fun _ => ⟨_, rfl⟩) (fun _ => rfl) _
    · exact refuses_fail ⟨_, rfl⟩ rfl
  · exact refuses_fail ⟨_, rfl⟩ rfl

/-! ## References that hints name -/

/-- Every hint at a program counter and every index in it. -/
def NamedBelow (count : Nat) (hints : List (Int × List Hint)) : Prop :=
  ∀ entry ∈ hints, ∀ h ∈ entry.2, ∀ id ∈ h.referenceIds, id.2 < (count : Int)

theorem danglingIn?_eq_none_iff {count : Nat} {pc : Int} {position : Nat} {h : Hint} :
    danglingIn? count pc position h = none ↔ ∀ id ∈ h.referenceIds, id.2 < (count : Int) := by
  simp [danglingIn?]

theorem dangling?_eq_none_iff {count : Nat} {hints : List (Int × List Hint)} :
    dangling? count hints = none ↔ NamedBelow count hints := by
  simp only [dangling?, List.findSome?_eq_none_iff, danglingIn?_eq_none_iff]
  constructor
  · intro none entry hentry h hh
    obtain ⟨n, hn⟩ := List.mem_iff_getElem?.mp hh
    exact none entry hentry (h, n) (List.mem_zipIdx_iff_getElem?.mpr hn)
  · intro below entry hentry p hp
    exact below entry hentry p.1 (List.fst_mem_of_mem_zipIdx hp)

theorem checkReferenceIds_eq_ok_iff {count : Nat} {hints : List (Int × List Hint)} :
    checkReferenceIds count hints = .ok () ↔ NamedBelow count hints := by
  rw [← dangling?_eq_none_iff, checkReferenceIds]
  cases dangling? count hints <;> simp [LoadError.fail_ne_ok]

/-- The integers in hints that messages about them have in them. -/
def ShortHints (hints : List (Int × List Hint)) : Prop :=
  ∀ entry ∈ hints, Document.ShortInteger entry.1 ∧
    ∀ h ∈ entry.2, ∀ id ∈ h.referenceIds, Document.ShortInteger id.2

theorem listedHintField_eq_ok {pc : Int} (position : Nat) (short : Document.ShortInteger pc) :
    ∃ s, LoadError.listedHintField pc position = .ok s := by
  obtain ⟨t, ht⟩ := short.text
  exact ⟨_, Except.bind_eq_ok.mpr ⟨t, ht, rfl⟩⟩

theorem danglingReference_worded {pc index : Int} (position : Nat) (name : Text) (count : Nat)
    (short : Document.ShortInteger pc) (short' : Document.ShortInteger index) :
    (LoadError.danglingReference pc position name index count).Worded := by
  obtain ⟨s, hs⟩ := listedHintField_eq_ok position short
  obtain ⟨t, ht⟩ := short'.text
  exact LoadError.worded_of ⟨_, Except.bind_eq_ok.mpr ⟨t, ht, rfl⟩⟩
    ⟨_, Except.bind_eq_ok.mpr ⟨s, hs, rfl⟩⟩

theorem checkReferenceIds_refuses (count : Nat) {hints : List (Int × List Hint)}
    (short : ShortHints hints) : Refuses .hint (checkReferenceIds count hints) := by
  unfold checkReferenceIds
  split
  · exact refuses_ok _ _
  · rename_i e he
    obtain ⟨entry, hentry, he⟩ := List.exists_of_findSome?_eq_some he
    obtain ⟨p, hp, he⟩ := List.exists_of_findSome?_eq_some he
    obtain ⟨id, hid, rfl⟩ := Option.map_eq_some_iff.mp he
    obtain ⟨hpc, hids⟩ := short entry hentry
    have hindex := hids p.1 (List.fst_mem_of_mem_zipIdx hp) id (List.mem_of_find?_eq_some hid)
    exact refuses_fail (danglingReference_worded _ _ _ hpc hindex) rfl

end Artifact

end FieldProgram

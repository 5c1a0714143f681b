import FieldProgram.Proofs.Artifact.HintKey
import FieldProgram.Proofs.Artifact.Sections

/-!
# The members of hints

The members of the hints stand for program counters that differ, and each holds a list of hints.
They are read one by one with the program counters seen so far; both results below are by induction
on the members, for any program counters seen.

* `hintMembers_eq_ok_iff`: the hints that are read;
* `hintMembers_settles`: when they are refused, and when a key is too long to be read.
-/

namespace FieldProgram.Artifact

open Numeral

/-! ## The hints of one program counter -/

/-- The hint of a record at its position. -/
def hintAt (pc : Int) (item : Document × Nat) : Except LoadFailure Hint :=
  checked (.badListedHint pc item.2) (Hint.check item.1)

theorem hintsFrom_eq_mapM (pc : Int) (position : Nat) (ds : List Document) :
    hintsFrom pc position ds = (ds.zipIdx position).mapM (hintAt pc) := by
  induction ds generalizing position with
  | nil => rfl
  | cons d ds ih =>
    rw [hintsFrom, List.zipIdx_cons, Except.mapM_cons, ← ih (position + 1), hintAt]
    cases checked (.badListedHint pc position) (Hint.check d) with
    | ok h => cases hintsFrom pc (position + 1) ds <;> rfl
    | error f => rfl

theorem hintsFrom_eq_ok_iff {pc : Int} {position : Nat} {ds : List Document} {hs : List Hint} :
    hintsFrom pc position ds = .ok hs ↔
      List.Forall₂ (fun d h => Hint.DescribedBy h d) ds hs := by
  rw [hintsFrom_eq_mapM, Except.mapM_eq_ok_iff]
  simp only [hintAt, checked_eq_ok_iff, Hint.check_eq_valid]
  exact forall₂_zipIdx (R := fun d h => Hint.DescribedBy h d)

theorem hintsFrom_refuses {pc : Int} (short : Document.ShortInteger pc) (position : Nat)
    (ds : List Document) : Refuses .hint (hintsFrom pc position ds) := by
  rw [hintsFrom_eq_mapM]
  refine refuses_mapM fun item _ => ?_
  refine refuses_checked (.badListedHint pc item.2) (fun faults => ?_) (fun _ => rfl) _
  obtain ⟨s, hs⟩ := listedHintField_eq_ok item.2 short
  exact LoadError.worded_of ⟨_, rfl⟩
    ⟨_, Except.map_eq_ok.mpr ⟨_, Except.bind_eq_ok.mpr ⟨s, hs, rfl⟩, rfl⟩⟩

/-! ## What is read -/

/-- The member describes the hints of a program counter. -/
def HintsDescribedBy (entry : Int × List Hint) (m : Text × Document) : Prop :=
  m.1.Denotes entry.1 ∧ m.1.codes.length ≤ maxDigits ∧
    ∃ ds, m.2 = .list ds ∧ List.Forall₂ (fun d h => Hint.DescribedBy h d) ds entry.2

/-- The entry of one member in front of the others, unless it has no hints. -/
def addEntry (pc : Int) (hs : List Hint) (rest : List (Int × List Hint)) :
    List (Int × List Hint) :=
  if hs.isEmpty then rest else (pc, hs) :: rest

/-- The step for a member with a list, whether or not the list is empty. -/
theorem hintMembers_list {seen : List Int} {key : Text} {pc : Int} (hkey : hintKey key = .ok pc)
    (fresh : pc ∉ seen) (ds : List Document) (ms : List (Text × Document)) :
    hintMembers seen ((key, .list ds) :: ms) =
      (hintsFrom pc 0 ds >>= fun hs => (hintMembers (pc :: seen) ms).map (addEntry pc hs)) := by
  rw [hintMembers, hkey]
  show (if pc ∈ seen then _ else _) = _
  rw [if_neg fresh]
  cases ds with
  | nil => cases hintMembers (pc :: seen) ms <;> rfl
  | cons d ds =>
    cases hhs : hintsFrom pc 0 (d :: ds) with
    | error f =>
      show (hintsFrom pc 0 (d :: ds) >>= _) = _
      rw [hhs]
      rfl
    | ok hs =>
      show (hintsFrom pc 0 (d :: ds) >>= _) = _
      rw [hhs]
      cases hintsFrom_eq_ok_iff.mp hhs
      cases hintMembers (pc :: seen) ms <;> rfl

theorem hintMembers_not_list {seen : List Int} {key : Text} {pc : Int}
    (hkey : hintKey key = .ok pc) (fresh : pc ∉ seen) {d : Document} (h : ¬ ∃ ds, d = .list ds)
    (ms : List (Text × Document)) :
    hintMembers seen ((key, d) :: ms) = .error (.rejected (.notHintList key)) := by
  rw [hintMembers, hkey]
  show (if pc ∈ seen then _ else _) = _
  rw [if_neg fresh]
  cases d with
  | list ds => exact absurd ⟨ds, rfl⟩ h
  | _ => rfl

theorem hintMembers_repeated {seen : List Int} {key : Text} {pc : Int}
    (hkey : hintKey key = .ok pc) (hseen : pc ∈ seen) (d : Document)
    (ms : List (Text × Document)) :
    hintMembers seen ((key, d) :: ms) = (LoadError.repeatedHintKey key pc).fail := by
  rw [hintMembers, hkey]
  exact if_pos hseen

theorem hintMembers_cons_eq_ok_iff {seen : List Int} {key : Text} {d : Document}
    {ms : List (Text × Document)} {out : List (Int × List Hint)} :
    hintMembers seen ((key, d) :: ms) = .ok out ↔
      ∃ pc hs rest, HintsDescribedBy (pc, hs) (key, d) ∧ pc ∉ seen ∧
        hintMembers (pc :: seen) ms = .ok rest ∧ out = addEntry pc hs rest := by
  constructor
  · intro h
    have read : ∃ pc, hintKey key = .ok pc := by
      rw [hintMembers] at h
      obtain ⟨pc, hkey, -⟩ := Except.bind_eq_ok.mp h
      exact ⟨pc, hkey⟩
    obtain ⟨pc, hkey⟩ := read
    obtain ⟨denotes, length⟩ := hintKey_eq_ok_iff.mp hkey
    by_cases hseen : pc ∈ seen
    · rw [hintMembers_repeated hkey hseen] at h
      exact absurd h (LoadError.fail_ne_ok _ _)
    · by_cases listed : ∃ ds, d = .list ds
      · obtain ⟨ds, rfl⟩ := listed
        rw [hintMembers_list hkey hseen] at h
        obtain ⟨hs, hhs, h⟩ := Except.bind_eq_ok.mp h
        obtain ⟨rest, hrest, rfl⟩ := Except.map_eq_ok.mp h
        have described := hintsFrom_eq_ok_iff.mp hhs
        exact ⟨pc, hs, rest, ⟨denotes, length, ds, rfl, described⟩, hseen, hrest, rfl⟩
      · cases (hintMembers_not_list hkey hseen listed ms).symm.trans h
  · rintro ⟨pc, hs, rest, ⟨denotes, length, ds, rfl, described⟩, fresh, hrest, rfl⟩
    rw [hintMembers_list (hintKey_of_denotes denotes length) fresh]
    refine Except.bind_eq_ok.mpr ⟨hs, hintsFrom_eq_ok_iff.mpr described, ?_⟩
    exact Except.map_eq_ok.mpr ⟨rest, hrest, rfl⟩

/-- The entries of all members, those without hints left out, are what is read. -/
theorem hintMembers_eq_ok_iff {seen : List Int} {ms : List (Text × Document)}
    {out : List (Int × List Hint)} :
    hintMembers seen ms = .ok out ↔
      ∃ entries, List.Forall₂ (fun m entry => HintsDescribedBy entry m) ms entries ∧
        (entries.map Prod.fst).Nodup ∧ (∀ pc ∈ entries.map Prod.fst, pc ∉ seen) ∧
        out = entries.filter fun entry => !entry.2.isEmpty := by
  induction ms generalizing seen out with
  | nil =>
    constructor
    · rintro ⟨⟩
      exact ⟨[], .nil, List.nodup_nil, by simp, rfl⟩
    · rintro ⟨_, ⟨⟩, -, -, rfl⟩
      rfl
  | cons m ms ih =>
    obtain ⟨key, d⟩ := m
    rw [hintMembers_cons_eq_ok_iff]
    simp only [ih]
    constructor
    · rintro ⟨pc, hs, _, described, fresh, ⟨entries, hentries, nodup, fresh', rfl⟩, rfl⟩
      have apart : pc ∉ entries.map Prod.fst := fun h => fresh' pc h (List.mem_cons_self ..)
      refine ⟨(pc, hs) :: entries, .cons described hentries, List.nodup_cons.mpr ⟨apart, nodup⟩, ?_,
        ?_⟩
      · refine List.forall_mem_cons.mpr ⟨fresh, fun pc' h => ?_⟩
        exact fun hseen => fresh' pc' h (List.mem_cons_of_mem _ hseen)
      · cases hs <;> rfl
    · rintro ⟨_, _ | ⟨described, hentries⟩, nodup, fresh, rfl⟩
      rename_i entry entries
      obtain ⟨pc, hs⟩ := entry
      obtain ⟨apart, nodup⟩ := List.nodup_cons.mp nodup
      obtain ⟨fresh, fresh'⟩ := List.forall_mem_cons.mp fresh
      refine ⟨pc, hs, _, described, fresh, ⟨entries, hentries, nodup, ?_, rfl⟩, ?_⟩
      · intro pc' h hseen
        rcases List.mem_cons.mp hseen with rfl | hseen
        · exact apart h
        · exact fresh' pc' h hseen
      · cases hs <;> rfl

/-! ## What is refused -/

/-- The member holds hints, in a list under a key for a program counter. -/
def IsHintMember (m : Text × Document) : Prop :=
  (∃ n, m.1.Denotes n) ∧ ∃ ds, m.2 = .list ds ∧ ∀ d ∈ ds, ∃ h : Hint, h.DescribedBy d

/-- The members hold hints, for program counters that differ. -/
structure AreHintMembers (ms : List (Text × Document)) : Prop where
  each : ∀ m ∈ ms, IsHintMember m
  distinct : ms.Pairwise fun a b => ∀ n, a.1.Denotes n → ¬ b.1.Denotes n

/-- No member stands for one of the program counters. -/
def Unseen (seen : List Int) (ms : List (Text × Document)) : Prop :=
  ∀ m ∈ ms, ∀ n, m.1.Denotes n → n ∉ seen

/-- A key is too long to be read, and there is nothing to refuse before it. -/
def MeetsOverlong (seen : List Int) (ms : List (Text × Document)) : Prop :=
  ∃ before m after, ms = before ++ m :: after ∧ AreHintMembers before ∧ Unseen seen before ∧
    m.1.Overlong

theorem areHintMembers_cons_iff (seen : List Int) {m : Text × Document} {n : Int}
    (denotes : m.1.Denotes n) {ms : List (Text × Document)} :
    AreHintMembers (m :: ms) ∧ Unseen seen (m :: ms) ↔
      IsHintMember m ∧ n ∉ seen ∧ AreHintMembers ms ∧ Unseen (n :: seen) ms := by
  constructor
  · rintro ⟨⟨each, distinct⟩, unseen⟩
    obtain ⟨first, each⟩ := List.forall_mem_cons.mp each
    obtain ⟨apart, distinct⟩ := List.pairwise_cons.mp distinct
    refine ⟨first, unseen m (List.mem_cons_self ..) n denotes, ⟨each, distinct⟩, ?_⟩
    intro b hb k hk hseen
    rcases List.mem_cons.mp hseen with rfl | hseen
    · exact apart b hb k denotes hk
    · exact unseen b (List.mem_cons_of_mem _ hb) k hk hseen
  · rintro ⟨first, fresh, ⟨each, distinct⟩, unseen⟩
    refine ⟨⟨List.forall_mem_cons.mpr ⟨first, each⟩, List.pairwise_cons.mpr ⟨?_, distinct⟩⟩, ?_⟩
    · intro b hb k hk hk'
      exact unseen b hb k hk' (List.mem_cons.mpr (.inl (hk.unique denotes)))
    · refine List.forall_mem_cons.mpr ⟨fun k hk => hk.unique denotes ▸ fresh, fun b hb k hk => ?_⟩
      exact fun hseen => unseen b hb k hk (List.mem_cons_of_mem _ hseen)

theorem meetsOverlong_cons_iff {seen : List Int} {m : Text × Document} {n : Int}
    (denotes : m.1.Denotes n) (length : m.1.codes.length ≤ maxDigits)
    {ms : List (Text × Document)} :
    MeetsOverlong seen (m :: ms) ↔ IsHintMember m ∧ n ∉ seen ∧ MeetsOverlong (n :: seen) ms := by
  constructor
  · rintro ⟨before, k, after, split, good, unseen, long⟩
    cases before with
    | nil =>
      cases split
      exact absurd long.2 (Nat.not_lt.mpr length)
    | cons b before =>
      cases split
      obtain ⟨first, fresh, good, unseen⟩ :=
        (areHintMembers_cons_iff seen denotes).mp ⟨good, unseen⟩
      exact ⟨first, fresh, before, k, after, rfl, good, unseen, long⟩
  · rintro ⟨first, fresh, before, k, after, rfl, good, unseen, long⟩
    obtain ⟨good, unseen⟩ :=
      (areHintMembers_cons_iff seen denotes).mpr ⟨first, fresh, good, unseen⟩
    exact ⟨m :: before, k, after, rfl, good, unseen, long⟩

/-- A first member that is refused decides about all. -/
theorem settles_of_first {seen : List Int} {m : Text × Document} {ms : List (Text × Document)}
    {e : LoadError} (area : e.area = .hint) (not_long : ¬ m.1.Overlong)
    (stuck : IsHintMember m → ∃ n ∈ seen, m.1.Denotes n) :
    Settles (AreHintMembers (m :: ms) ∧ Unseen seen (m :: ms)) (MeetsOverlong seen (m :: ms))
      .hint (.error (.rejected e) : Except LoadFailure (List (Int × List Hint))) := by
  have never : ∀ rest, AreHintMembers (m :: rest) → ¬ Unseen seen (m :: rest) := by
    intro rest good unseen
    obtain ⟨n, hseen, hn⟩ := stuck (good.each m (List.mem_cons_self ..))
    exact unseen m (List.mem_cons_self ..) n hn hseen
  refine .rejected e area (fun good => never ms good.1 good.2) ?_
  rintro ⟨before, k, after, split, good, unseen, long⟩
  cases before with
  | nil =>
    cases split
    exact not_long long
  | cons b before =>
    cases split
    exact never before good unseen

/-- A first member that passes leaves the decision to the others. -/
theorem settles_of_rest {seen : List Int} {m : Text × Document} {ms : List (Text × Document)}
    {n : Int} (denotes : m.1.Denotes n) (length : m.1.codes.length ≤ maxDigits)
    (first : IsHintMember m) (fresh : n ∉ seen) (hs : List Hint)
    {c : Except LoadFailure (List (Int × List Hint))}
    (rest : Settles (AreHintMembers ms ∧ Unseen (n :: seen) ms) (MeetsOverlong (n :: seen) ms)
      .hint c) :
    Settles (AreHintMembers (m :: ms) ∧ Unseen seen (m :: ms)) (MeetsOverlong seen (m :: ms))
      .hint (c.map (addEntry n hs)) := by
  have pass : AreHintMembers (m :: ms) ∧ Unseen seen (m :: ms) ↔
      AreHintMembers ms ∧ Unseen (n :: seen) ms := by
    rw [areHintMembers_cons_iff seen denotes]
    exact ⟨fun h => h.2.2, fun h => ⟨first, fresh, h⟩⟩
  have overrun : MeetsOverlong seen (m :: ms) ↔ MeetsOverlong (n :: seen) ms := by
    rw [meetsOverlong_cons_iff denotes length]
    exact ⟨fun h => h.2.2, fun h => ⟨first, fresh, h⟩⟩
  exact (rest.map _).of_iff pass.symm overrun.symm

theorem repeatedHintKey_worded (key : Text) {pc : Int} (short : Document.ShortInteger pc) :
    (LoadError.repeatedHintKey key pc).Worded := by
  obtain ⟨t, ht⟩ := short.text
  exact LoadError.worded_of ⟨_, Except.bind_eq_ok.mpr ⟨t, ht, rfl⟩⟩ ⟨_, rfl⟩

theorem hintMembers_settles (seen : List Int) (ms : List (Text × Document)) :
    Settles (AreHintMembers ms ∧ Unseen seen ms) (MeetsOverlong seen ms) .hint
      (hintMembers seen ms) := by
  induction ms generalizing seen with
  | nil =>
    refine .accepted [] ⟨⟨by simp, .nil⟩, by simp [Unseen]⟩ ?_
    rintro ⟨before, m, after, split, -⟩
    cases before <;> cases split
  | cons m ms ih =>
    obtain ⟨key, d⟩ := m
    by_cases denotes : ∃ n, key.Denotes n
    · obtain ⟨n, hn⟩ := denotes
      by_cases length : key.codes.length ≤ maxDigits
      · have hkey := hintKey_of_denotes hn length
        have not_long : ¬ key.Overlong := fun long => Nat.not_lt.mpr length long.2
        by_cases hseen : n ∈ seen
        · rw [hintMembers_repeated hkey hseen,
            LoadError.fail_eq (repeatedHintKey_worded key (hn.short length))]
          exact settles_of_first rfl not_long fun _ => ⟨n, hseen, hn⟩
        · by_cases listed : ∃ ds, d = .list ds
          · obtain ⟨ds, rfl⟩ := listed
            rw [hintMembers_list hkey hseen]
            cases hhs : hintsFrom n 0 ds with
            | ok hs =>
              have described := hintsFrom_eq_ok_iff.mp hhs
              have first : IsHintMember (key, .list ds) :=
                ⟨⟨n, hn⟩, ds, rfl, exists_forall₂_iff.mp ⟨hs, described⟩⟩
              exact settles_of_rest hn length first hseen hs (ih (n :: seen))
            | error f =>
              obtain ⟨e, rfl, area⟩ := hintsFrom_refuses (hn.short length) 0 ds f hhs
              refine settles_of_first area not_long ?_
              rintro ⟨-, _, ⟨⟩, each⟩
              obtain ⟨hs, described⟩ := exists_forall₂_iff.mpr each
              cases hhs.symm.trans (hintsFrom_eq_ok_iff.mpr described)
          · rw [hintMembers_not_list hkey hseen listed]
            refine settles_of_first rfl not_long ?_
            rintro ⟨-, ds, rfl, -⟩
            exact absurd ⟨ds, rfl⟩ listed
      · obtain ⟨l, hl⟩ := hintKey_of_overlong ⟨⟨n, hn⟩, Nat.not_le.mp length⟩
        rw [hintMembers, hl]
        refine .limited l ⟨[], (key, d), ms, rfl, ⟨by simp, .nil⟩, by simp [Unseen], ?_⟩
        exact ⟨⟨n, hn⟩, Nat.not_le.mp length⟩
    · rw [hintMembers, hintKey_of_not_denotes denotes]
      exact settles_of_first rfl (fun long => denotes long.1) fun good => absurd good.1 denotes

end FieldProgram.Artifact

import FieldProgram.Proofs.CommandLine.Options

/-!
# How parts of words are read

Parts are read from the front. What is read in front of an option does not depend on what comes
behind it, and options that reading does not look at may be changed before or after it.

* `Reads`, `reads_iff`: reading as a relation, with one rule for each kind of part;
* `readInFront`: parts in front of an option are read to a state or to an end;
* `Reads.map`: changes to the options that reading does not see.
-/

namespace FieldProgram.CommandLine

variable {t u : Setting} {s s' : State} {as rest : List Arg} {p : Parsed}
  {f : Options → Options}

/-- Changes the options of a state. -/
def State.map (f : Options → Options) (s : State) : State := { s with options := f s.options }

/-- Changes the options that were read, if there are any. -/
def Parsed.map (f : Options → Options) : Parsed → Parsed
  | options o => options (f o)
  | help => help
  | misuse => misuse

theorem Parsed.map_of_none (none : ∀ o, p ≠ .options o) : p.map f = p := by
  cases p with
  | options o => exact absurd rfl (none o)
  | _ => rfl

/-! ## Reading, part by part -/

/-- Reading parts from a state ends so. -/
inductive Reads : State → List Arg → Parsed → Prop
  | finish (s : State) : Reads s [] (s.finish [])
  | flag {s s' : State} {f : Flag} {attached : Attached} {as : List Arg} {p : Parsed}
    (read : s.flag attached f = .ok s') (rest : Reads s' as p) :
    Reads s (.option (.flag f) attached :: as) p
  /-- A flag that asks for help or has something attached ends the reading. -/
  | ends {s : State} {f : Flag} {attached : Attached} {p : Parsed} (as : List Arg)
    (read : s.flag attached f = .error p) : Reads s (.option (.flag f) attached :: as) p
  | inside {s : State} {t : Setting} {v : String} {as : List Arg} {p : Parsed}
    (rest : Reads (s.map (·.set v t)) as p) : Reads s (.option (.setting t) (.value v) :: as) p
  | behind {s : State} {t : Setting} {attached : Attached} {v : String} {as : List Arg}
    {p : Parsed} (bare : ∀ x, attached ≠ .value x) (rest : Reads (s.map (·.set v t)) as p) :
    Reads s (.option (.setting t) attached :: .positional v :: as) p
  | valueless (s : State) (t : Setting) {attached : Attached} {as : List Arg}
    (bare : ∀ x, attached ≠ .value x) (none : ∀ v, as.head? ≠ some (.positional v)) :
    Reads s (.option (.setting t) attached :: as) .misuse
  | unknown {s : State} {as : List Arg} {p : Parsed} (rest : Reads { s with extra := true } as p) :
    Reads s (.unknown :: as) p
  /-- Words behind those that fill the places are too many. -/
  | tooMany {s : State} {a : Arg} {as : List Arg} {p : Parsed} (placed : s.placed = true)
    (plain : a.isOption = false)
    (rest : Reads { s with extra := true } (as.dropWhile (!·.isOption)) p) : Reads s (a :: as) p
  | places {s : State} {a : Arg} {as : List Arg} {p : Parsed} (free : s.placed = false)
    (plain : a.isOption = false) (rest : Reads (s.fill (a :: as)).1 (s.fill (a :: as)).2 p) :
    Reads s (a :: as) p

/-! ### How much is left -/

theorem Behind.length_le (h : Behind rest as) : rest.length ≤ as.length := by
  obtain ⟨front, rfl, -⟩ := h
  simp

theorem place_cons_behind {a : Arg} (plain : a.isOption = false) :
    Behind (place (a :: as)).2 as := by
  cases a with
  | positional v => exact separators_behind as
  | separator =>
    have same : (place (.separator :: as)).2 = (place as).2 := rfl
    exact same ▸ place_behind as
  | option o attached => cases plain
  | unknown => cases plain

/-- Filling the places takes a part at least. -/
theorem State.length_fill_le {a : Arg} (plain : a.isOption = false) :
    (s.fill (a :: as)).2.length ≤ as.length :=
  ((place_behind _).trans (place_cons_behind plain)).length_le

/-! ### Steps -/

theorem readFrom_plain (fuel : Nat) (plain : ∀ a ∈ as, a.isOption = false) :
    readFrom fuel s as = s.finish as := by
  have none_left : as.any Arg.isOption = false := by simpa using plain
  cases fuel with
  | zero => rfl
  | succ fuel =>
    unfold readFrom
    rw [none_left]
    rfl

/-- Words are read in one go up to the next option. -/
theorem readFrom_words (fuel : Nat) {a : Arg} (plain : a.isOption = false)
    (later : ∃ a ∈ as, a.isOption = true) : readFrom (fuel + 1) s (a :: as) =
      if s.placed then readFrom fuel { s with extra := true } (as.dropWhile (!·.isOption))
      else readFrom fuel (s.fill (a :: as)).1 (s.fill (a :: as)).2 := by
  have some_left : ((a :: as).any fun a => a.isOption) = true := by
    rw [List.any_cons, List.any_eq_true.mpr later, Bool.or_true]
  cases a with
  | option => cases plain
  | unknown => cases plain
  | _ =>
    rw [readFrom.eq_def]
    dsimp only
    rw [some_left, Bool.not_true, if_neg Bool.false_ne_true, List.dropWhile_cons_of_pos rfl]

theorem readFrom_flag (fuel : Nat) (s : State) (f : Flag) (attached : Attached) (as : List Arg) :
    readFrom (fuel + 1) s (.option (.flag f) attached :: as) =
      match s.flag attached f with
      | .ok s' => readFrom fuel s' as
      | .error p => p := rfl

theorem readFrom_behind (fuel : Nat) {attached : Attached} {v : String}
    (bare : ∀ x, attached ≠ .value x) :
    readFrom (fuel + 1) s (.option (.setting t) attached :: .positional v :: as) =
      readFrom fuel (s.map (·.set v t)) as := by
  cases attached with
  | value x => exact absurd rfl (bare x)
  | _ => rfl

theorem readFrom_valueless (fuel : Nat) {attached : Attached} (bare : ∀ x, attached ≠ .value x)
    (none : ∀ v, as.head? ≠ some (.positional v)) :
    readFrom (fuel + 1) s (.option (.setting t) attached :: as) = .misuse := by
  cases attached with
  | value x => exact absurd rfl (bare x)
  | _ =>
    cases as with
    | nil => rfl
    | cons a as =>
      cases a with
      | positional v => exact absurd rfl (none v)
      | _ => rfl

theorem State.finish_of_placed {a : Arg} (placed : s.placed = true) :
    s.finish (a :: as) = .misuse := by
  simp [finish, placed]

theorem State.finish_of_extra (extra : s.extra = true) : s.finish as = .misuse := by
  have kept : (s.fill as).1.extra = true := extra
  cases placed : s.placed <;> simp [finish, placed, extra, kept]

theorem State.finish_of_free (free : s.placed = false) :
    s.finish as = (s.fill as).1.finish (s.fill as).2 := by
  have placed : (s.fill as).1.placed = true := rfl
  simp [finish, free, placed]

/-- Parts are read in one way only, if there is fuel for all of them. -/
theorem Reads.eq {fuel : Nat} (h : Reads s as p) (enough : as.length ≤ fuel) :
    readFrom fuel s as = p := by
  induction h generalizing fuel with
  | finish s => exact readFrom_plain fuel (by simp)
  | @tooMany s a as p placed plain _ ih =>
    obtain ⟨fuel, rfl⟩ := Nat.exists_eq_add_of_lt enough
    have read : readFrom (as.length + fuel) { s with extra := true }
        (as.dropWhile (!·.isOption)) = p :=
      ih ((Behind.dropWhile as).length_le.trans (Nat.le_add_right ..))
    by_cases later : ∃ a ∈ as, a.isOption = true
    · rw [readFrom_words _ plain later, if_pos placed, read]
    · have rest : ∀ a ∈ as, a.isOption = false := by simpa using later
      rw [readFrom_plain _ (List.forall_mem_cons.mpr ⟨plain, rest⟩), s.finish_of_placed placed,
        ← read, List.dropWhile_eq_nil_iff.mpr (by simpa using rest), readFrom_plain _ (by simp),
        State.finish_of_extra rfl]
  | @places s a as p free plain _ ih =>
    obtain ⟨fuel, rfl⟩ := Nat.exists_eq_add_of_lt enough
    have read : readFrom (as.length + fuel) (s.fill (a :: as)).1 (s.fill (a :: as)).2 = p :=
      ih ((s.length_fill_le plain).trans (Nat.le_add_right ..))
    by_cases later : ∃ a ∈ as, a.isOption = true
    · rw [readFrom_words _ plain later, if_neg (by simp [free]), read]
    · have rest : ∀ b ∈ a :: as, b.isOption = false :=
        List.forall_mem_cons.mpr ⟨plain, by simpa using later⟩
      obtain ⟨front, split, -⟩ := s.fill_behind (a :: as)
      rw [readFrom_plain _ rest, State.finish_of_free free, ← read, readFrom_plain]
      exact fun b hb => rest b (split ▸ List.mem_append_right front hb)
  | @flag s s' f attached as p read _ ih =>
    obtain ⟨fuel, rfl⟩ := Nat.exists_eq_add_of_lt enough
    rw [readFrom_flag, read]
    exact ih (Nat.le_add_right ..)
  | @ends s f attached p as read =>
    obtain ⟨fuel, rfl⟩ := Nat.exists_eq_add_of_lt enough
    rw [readFrom_flag, read]
  | inside _ ih =>
    obtain ⟨fuel, rfl⟩ := Nat.exists_eq_add_of_lt enough
    exact ih (Nat.le_add_right ..)
  | behind bare _ ih =>
    obtain ⟨fuel, rfl⟩ := Nat.exists_eq_add_of_lt enough
    rw [readFrom_behind _ bare]
    exact ih (Nat.le_trans (Nat.le_succ _) (Nat.le_add_right ..))
  | valueless s t bare none =>
    obtain ⟨fuel, rfl⟩ := Nat.exists_eq_add_of_lt enough
    rw [readFrom_valueless _ bare none]
  | unknown _ ih =>
    obtain ⟨fuel, rfl⟩ := Nat.exists_eq_add_of_lt enough
    exact ih (Nat.le_add_right ..)

theorem Reads.unique {q : Parsed} (h : Reads s as p) (h' : Reads s as q) : p = q :=
  (h.eq (Nat.le_refl _)).symm.trans (h'.eq (Nat.le_refl _))

/-! ## What is read in front of an option -/

/-- The parts start with an option, or there are none. -/
def Opens (as : List Arg) : Prop := ∀ a ∈ as.head?, a.isOption = true

theorem separators_append {xs : List Arg} (opens : Opens as) :
    separators (xs ++ as) = ((separators xs).1, (separators xs).2 ++ as) := by
  fun_induction separators xs with
  | case1 xs ss rest same ih =>
    rw [same] at ih
    rw [List.cons_append, separators, ih]
  | case2 xs other =>
    cases xs with
    | cons a xs =>
      cases a with
      | separator => exact absurd rfl (other xs)
      | _ => rfl
    | nil =>
      cases as with
      | nil => rfl
      | cons a as =>
        cases a with
        | separator => cases opens _ rfl
        | _ => rfl

/-- Up to an option, places are filled as if nothing else came. -/
theorem place_append {xs : List Arg} (opens : Opens as) :
    place (xs ++ as) = ((place xs).1, (place xs).2 ++ as) := by
  unfold place
  rw [separators_append opens]
  generalize separators xs = front
  obtain ⟨ss, rest⟩ := front
  dsimp only
  cases rest with
  | cons a rest =>
    cases a with
    | positional v => simp only [List.cons_append, separators_append opens]
    | _ =>
      simp only [List.cons_append]
      rw [← List.cons_append, separators_append opens]
  | nil =>
    have none : separators ([] ++ as) = ([], [] ++ as) := separators_append opens
    rw [List.nil_append] at none
    cases as with
    | nil => rfl
    | cons a as =>
      cases a with
      | positional v => cases opens _ rfl
      | _ => simp [none, separators]

theorem State.fill_append {xs : List Arg} (opens : Opens as) :
    s.fill (xs ++ as) = ((s.fill xs).1, (s.fill xs).2 ++ as) := by
  simp only [fill, place_append opens]

theorem dropWhile_append_of_opens {xs : List Arg} (opens : Opens as) :
    (xs ++ as).dropWhile (!·.isOption) = xs.dropWhile (!·.isOption) ++ as := by
  rw [List.dropWhile_append]
  split
  · rename_i none
    rw [List.isEmpty_iff.mp none]
    cases as with
    | nil => rfl
    | cons a as => exact List.dropWhile_cons_of_neg (by simpa using opens a rfl)
  · rfl

/-- Reading parts in front of an option leads to a state, from which reading goes on. Settings that
they do not name are as they were. -/
structure Passes (s : State) (front : List Arg) (s' : State) : Prop where
  reads {as : List Arg} {p : Parsed} (opens : Opens as) (rest : Reads s' as p) :
    Reads s (front ++ as) p
  kept (t : Setting) (unnamed : Unnamed t front) : s'.options.value t = s.options.value t

/-- Reading parts ends whatever comes behind them. -/
structure Stops (s : State) (front : List Arg) (p : Parsed) : Prop where
  reads {as : List Arg} (opens : Opens as) : Reads s (front ++ as) p
  none (o : Options) : p ≠ .options o

/-- Parts are read in front of an option, to a state or to an end. -/
def ReadInFront (s : State) (front : List Arg) : Prop :=
  (∃ s', Passes s front s') ∨ ∃ p, Stops s front p

/-- If what is left after a step is read, all is read. -/
theorem ReadInFront.step {front : List Arg} (h : ReadInFront s' rest) (fewer : rest ⊆ front)
    (kept : ∀ t, Unnamed t front → s'.options.value t = s.options.value t)
    (step : ∀ {as p}, Opens as → Reads s' (rest ++ as) p → Reads s (front ++ as) p) :
    ReadInFront s front := by
  rcases h with ⟨s'', passes⟩ | ⟨p, stops⟩
  · refine .inl ⟨s'', fun opens more => step opens (passes.reads opens more), fun t unnamed => ?_⟩
    rw [passes.kept t (unnamed.subset fewer), kept t unnamed]
  · exact .inr ⟨p, fun opens => step opens (stops.reads opens), stops.none⟩

theorem Behind.subset (h : Behind rest as) : rest ⊆ as := by
  obtain ⟨front, rfl, -⟩ := h
  exact List.subset_append_right ..

theorem ReadInFront.setting {attached : Attached} {front : List Arg}
    (next : ∀ {s' rest}, rest.length ≤ front.length → ReadInFront s' rest) :
    ReadInFront s (.option (.setting t) attached :: front) := by
  have kept {v : String} {attached : Attached} {rest : List Arg} (u : Setting)
      (unnamed : Unnamed u (.option (.setting t) attached :: rest)) :
      (s.map (·.set v t)).options.value u = s.options.value u := by
    rw [State.map, Options.value_set, if_neg unnamed.ne_head, Option.none_or]
  by_cases inside : ∃ v, attached = .value v
  · obtain ⟨v, rfl⟩ := inside
    exact (next (Nat.le_refl _)).step (List.subset_cons_self ..) kept fun _ rest => .inside rest
  · have bare : ∀ x, attached ≠ .value x := not_exists.mp inside
    by_cases behind : ∃ v rest, front = .positional v :: rest
    · obtain ⟨v, rest, rfl⟩ := behind
      exact (next (Nat.le_succ _)).step
        (fun _ mem => List.mem_cons_of_mem _ (List.mem_cons_of_mem _ mem)) kept
        fun _ rest => .behind bare rest
    · refine .inr ⟨.misuse, fun opens => .valueless s t bare fun v head => ?_, by simp⟩
      cases front with
      | nil => cases opens _ head
      | cons a rest =>
        obtain rfl := Option.some.inj head
        exact behind ⟨v, rest, rfl⟩

/-- Any parts are read in front of an option. -/
theorem readInFront (s : State) (front : List Arg) : ReadInFront s front := by
  induction n : front.length using Nat.strong_induction_on generalizing s front with
  | _ n ih =>
    subst n
    cases front with
    | nil => exact .inl ⟨s, fun _ => id, fun _ _ => rfl⟩
    | cons a front =>
      have next (s' : State) {rest : List Arg} (h : rest.length ≤ front.length) :
          ReadInFront s' rest := ih _ (Nat.lt_succ_of_le h) s' rest rfl
      have fewer : front ⊆ a :: front := List.subset_cons_self ..
      have words (plain : a.isOption = false) : ReadInFront s (a :: front) := by
        cases placed : s.placed with
        | true =>
          have behind := Behind.dropWhile front
          refine (next { s with extra := true } behind.length_le).step
            (List.Subset.trans behind.subset fewer) (fun _ _ => rfl) fun opens rest => ?_
          exact .tooMany placed plain (dropWhile_append_of_opens opens ▸ rest)
        | false =>
          refine (next (s.fill (a :: front)).1 (s.length_fill_le plain)).step
            (s.fill_behind _).subset (fun _ _ => s.fill_value _) fun {as p} opens rest => ?_
          have filled : s.fill ((a :: front) ++ as) =
            ((s.fill (a :: front)).1, (s.fill (a :: front)).2 ++ as) := s.fill_append opens
          rw [List.cons_append] at filled
          exact .places placed plain (filled ▸ rest)
      cases a with
      | positional v => exact words rfl
      | separator => exact words rfl
      | unknown =>
        exact (next { s with extra := true } (Nat.le_refl _)).step fewer (fun _ _ => rfl)
          fun _ rest => .unknown rest
      | option o attached =>
        cases o with
        | setting t => exact .setting fun h => next _ h
        | flag f =>
          cases flagged : s.flag attached f with
          | ok s' =>
            exact (next s' (Nat.le_refl _)).step fewer (fun _ _ => State.flag_value flagged)
              fun _ rest => .flag flagged rest
          | error p =>
            refine .inr ⟨p, fun _ => .ends _ flagged, ?_⟩
            rintro o rfl
            exact State.flag_ne_options flagged

/-- All parts can be read. -/
theorem exists_reads (s : State) (as : List Arg) : ∃ p, Reads s as p := by
  have none : Opens [] := by simp [Opens]
  rcases readInFront s as with ⟨s', passes⟩ | ⟨p, stops⟩
  · exact ⟨_, List.append_nil as ▸ passes.reads none (.finish s')⟩
  · exact ⟨p, List.append_nil as ▸ stops.reads none⟩

theorem reads_iff {fuel : Nat} (enough : as.length ≤ fuel) :
    Reads s as p ↔ readFrom fuel s as = p := by
  refine ⟨fun h => h.eq enough, ?_⟩
  rintro rfl
  obtain ⟨p, h⟩ := exists_reads s as
  exact (h.eq enough).symm ▸ h

/-! ## Changed options -/

/-- Reading parts sees no difference between options and the changed options. -/
structure Unseen (f : Options → Options) (as : List Arg) : Prop where
  places (o : Options) (command artifact : Option String) :
    f { o with command, artifact } = { f o with command, artifact }
  json (o : Options) : f { o with json := true } = { f o with json := true }
  verbose (o : Options) : f { o with verbose := true } = { f o with verbose := true }
  set {t : Setting} {attached : Attached} (named : .option (.setting t) attached ∈ as)
    (o : Options) (v : String) : f (o.set v t) = (f o).set v t

theorem Unseen.subset {rest : List Arg} (h : Unseen f as) (fewer : rest ⊆ as) : Unseen f rest where
  places := h.places
  json := h.json
  verbose := h.verbose
  set named := h.set (fewer named)

theorem Unseen.fill (h : Unseen f as) (s : State) (xs : List Arg) :
    (s.map f).fill xs = ((s.fill xs).1.map f, (s.fill xs).2) := by
  have same := h.places s.options (place xs).1 (place (place xs).2).1
  rw [State.fill, State.fill]
  exact congrArg (fun o => (({ options := o, placed := true, extra := s.extra } : State), _))
    same.symm

theorem Unseen.finish (h : Unseen f as) (s : State) (xs : List Arg) :
    (s.map f).finish xs = (s.finish xs).map f := by
  have last (b : Bool) (o : Options) :
      (if b then Parsed.misuse else .options (f o)) =
        (if b then Parsed.misuse else .options o).map f := by
    cases b <;> rfl
  cases placed : s.placed with
  | true =>
    have same : (s.map f).placed = true := placed
    simp only [State.finish, placed, same, if_true]
    exact last _ _
  | false =>
    have same : (s.map f).placed = false := placed
    simp only [State.finish, placed, same, Bool.false_eq_true, if_false, h.fill]
    exact last _ _

theorem Unseen.flag (h : Unseen f as) (s : State) (attached : Attached) (flag : Flag) :
    (s.map f).flag attached flag = (s.flag attached flag).map (State.map f) := by
  cases flag with
  | help => cases attached <;> rfl
  | json =>
    by_cases bare : attached = .nothing <;> simp [State.flag, bare, State.map, h.json, Except.map]
  | verbose =>
    by_cases bare : attached = .nothing <;>
      simp [State.flag, bare, State.map, h.verbose, Except.map]

theorem Reads.map (h : Reads s as p) (unseen : Unseen f as) : Reads (s.map f) as (p.map f) := by
  induction h with
  | finish s => exact unseen.finish s [] ▸ .finish _
  | @flag s s' flag attached as p read _ ih =>
    refine .flag ?_ (ih (unseen.subset (List.subset_cons_self ..)))
    rw [unseen.flag, read]
    rfl
  | @ends s flag attached p as read =>
    refine .ends as ?_
    have ended (o : Options) : p ≠ .options o := by
      rintro rfl
      exact State.flag_ne_options read
    rw [unseen.flag, read, Parsed.map_of_none ended]
    rfl
  | @inside s t v as p _ ih =>
    have same : (s.map f).map (·.set v t) = (s.map (·.set v t)).map f := by
      simp [State.map, unseen.set (List.mem_cons_self ..)]
    exact .inside (same ▸ ih (unseen.subset (List.subset_cons_self ..)))
  | @behind s t attached v as p bare _ ih =>
    have same : (s.map f).map (·.set v t) = (s.map (·.set v t)).map f := by
      simp [State.map, unseen.set (List.mem_cons_self ..)]
    refine .behind bare (same ▸ ih (unseen.subset ?_))
    exact List.Subset.trans (List.subset_cons_self ..) (List.subset_cons_self ..)
  | valueless s t bare none => exact .valueless _ t bare none
  | unknown _ ih => exact .unknown (ih (unseen.subset (List.subset_cons_self ..)))
  | @tooMany s a as p placed plain _ ih =>
    exact .tooMany placed plain
      (ih (unseen.subset
        (List.Subset.trans (Behind.dropWhile as).subset (List.subset_cons_self ..))))
  | @places s a as p free plain _ ih =>
    refine .places free plain ?_
    rw [unseen.fill]
    exact ih (unseen.subset (s.fill_behind _).subset)

end FieldProgram.CommandLine

import FieldProgram.Proofs.CommandLine.Blocks
import FieldProgram.Proofs.CommandLine.ExpectedPrime
import FieldProgram.Proofs.CommandLine.Seen

/-!
# The flag that has everything logged

An option of its own says that everything is logged. Added where an option may stand, it changes
nothing else that is read of the words, and so nothing that is seen of a run. Elsewhere in front of
two dashes it may be read like that too, or else it makes the words misuse.

* `AddsVerbose.read`: the words are read as without the flag;
* `read_verbosely_or_misuse`: so they are wherever the flag is added, unless they are misuse then;
* `verbosely_unseen`: the same is seen then, and nothing is missing from the log.
-/

namespace FieldProgram.CommandLine

open Log

variable {words words' : List String} {w : String} {s s' : State} {as rest front back : List Arg}
  {p : Parsed}

/-! ## Words with the flag -/

/-- The options with the flag that has everything logged. -/
def Options.verbosely (o : Options) : Options := { o with verbose := true }

/-- The word is the flag that has everything logged. -/
def IsVerbose (w : String) : Prop := classify? w = some (.option (.flag .verbose) .nothing)

instance : Decidable (IsVerbose w) :=
  inferInstanceAs (Decidable (classify? w = some (.option (.flag .verbose) .nothing)))

/-- The words start with an option, or there are none. -/
def StartsWithOption (words : List String) : Prop :=
  ∀ w ∈ words.head?, ∃ a, classify? w = some a ∧ a.isOption = true

/-- An option that takes nothing from the words behind it. -/
inductive IsWhole : Arg → Prop
  | flag (f : Flag) (attached : Attached) : IsWhole (.option (.flag f) attached)
  | setting (t : Setting) (v : String) : IsWhole (.option (.setting t) (.value v))
  | unknown : IsWhole .unknown

/-- The words end with an option and its value, or there are none. -/
inductive EndsWithOption : List String → Prop
  | nil : EndsWithOption []
  | whole (front : List String) {w : String} {a : Arg} (part : classify? w = some a)
    (whole : IsWhole a) : EndsWithOption (front ++ [w])
  | valued (front : List String) {name v : String} {t : Setting} {attached : Attached}
    (part : classify? name = some (.option (.setting t) attached))
    (bare : ∀ x, attached ≠ .value x) (value : classify? v = some (.positional v)) :
    EndsWithOption (front ++ [name, v])

/-- The flag is added behind an option and its value or in front of one, or at either end.

In other places it can make a usage error of the words: between an option and its value it leaves
the option without one, and between words that are read in one go, such as `inspect` and the
artifact, it leaves those behind it over. Behind two dashes it is no option but a word of its own.
-/
inductive AddsVerbose : List String → List String → Prop
  | add {w : String} {front back : List String} (flag : IsVerbose w) (separator : "--" ∉ front)
    (beside : EndsWithOption front ∨ StartsWithOption back) :
    AddsVerbose (front ++ back) (front ++ w :: back)

/-- Between `inspect` and the artifact the flag makes a usage error of a run that prints a
summary. -/
theorem run_verbose_between_words :
    IsVerbose "--verbose" ∧
      (∃ t, seen (run .standard twoFiles ["inspect", "a.json"]) = .ok (0, .text t)) ∧
      seen (run .standard twoFiles ["inspect", "--verbose", "a.json"]) = .ok (2, .text "") := by
  have loads := constantDocument_loads "__main__.LIMIT" twoOfSeven
  have names : Host.standard.TakesNames (constantProgram "__main__.LIMIT" twoOfSeven) :=
    takesNames_constantProgram_iff.mpr (takes_ofString (by decide))
  obtain ⟨t, log, prints⟩ := (twoFiles_opened.run_summary loads).1
    (constantProgram_shortConstants_iff.mpr (by decide)) names
  have misread : read ["inspect", "--verbose", "a.json"] = .misuse := by decide
  refine ⟨by decide, ⟨t, by rw [prints]; rfl⟩, ?_⟩
  rw [run, misread]
  rfl

/-! ### Where an option may stand -/

theorem unseen_verbosely (as : List Arg) : Unseen Options.verbosely as where
  places _ _ _ := rfl
  json _ := rfl
  verbose _ := rfl
  set {t attached} _ o v := by cases t <;> rfl

theorem Reads.verbosely {s : State} {as : List Arg} {p : Parsed} (h : Reads s as p) :
    Reads s (.option (.flag .verbose) .nothing :: as) (p.map .verbosely) :=
  .flag rfl (h.map (unseen_verbosely as))

/-- Parts are read in front of such others to a state, or to an end. -/
def ReadBefore (such : List Arg → Prop) (s : State) (front : List Arg) : Prop :=
  (∃ s', ∀ {as p}, such as → Reads s' as p → Reads s (front ++ as) p) ∨
    ∃ p, (∀ o, p ≠ .options o) ∧ ∀ {as}, such as → Reads s (front ++ as) p

theorem readBefore_opens (s : State) (front : List Arg) : ReadBefore Opens s front := by
  rcases readInFront s front with ⟨s', passes⟩ | ⟨p, stops⟩
  · exact .inl ⟨s', passes.reads⟩
  · exact .inr ⟨p, stops.none, stops.reads⟩

theorem ReadBefore.append {such such' : List Arg → Prop} {s : State} {front last : List Arg}
    (h : ReadBefore such s front) (h' : ∀ s, ReadBefore such' s last)
    (keeps : ∀ as, such' as → such (last ++ as)) : ReadBefore such' s (front ++ last) := by
  rcases h with ⟨s', reads⟩ | ⟨p, none, reads⟩
  · rcases h' s' with ⟨s'', reads'⟩ | ⟨p, none, reads'⟩
    · exact .inl ⟨s'', fun {as p} behind rest =>
        List.append_assoc front last as ▸ reads (keeps as behind) (reads' behind rest)⟩
    · exact .inr ⟨p, none, fun {as} behind =>
        List.append_assoc front last as ▸ reads (keeps as behind) (reads' behind)⟩
  · exact .inr ⟨p, none, fun {as} behind =>
      List.append_assoc front last as ▸ reads (keeps as behind)⟩

/-- What comes behind an option that takes nothing of it makes no difference to the option. -/
theorem IsWhole.readBefore {a : Arg} (h : IsWhole a) (s : State) :
    ReadBefore (fun _ => True) s [a] := by
  cases h with
  | flag f attached =>
    cases flagged : s.flag attached f with
    | ok s' => exact .inl ⟨s', fun _ rest => .flag flagged rest⟩
    | error p =>
      refine .inr ⟨p, ?_, fun _ => .ends _ flagged⟩
      rintro o rfl
      exact State.flag_ne_options flagged
  | setting t v => exact .inl ⟨_, fun _ rest => .inside rest⟩
  | unknown => exact .inl ⟨_, fun _ rest => .unknown rest⟩

theorem IsWhole.isOption {a : Arg} (h : IsWhole a) : a.isOption = true := by
  cases h <;> rfl

/-- The parts of words that end with an option are read before any others. -/
theorem EndsWithOption.readBefore {front : List String} {as : List Arg}
    (h : EndsWithOption front) (separator : "--" ∉ front) (parts : classifyAll? front = some as)
    (s : State) : ReadBefore (fun _ => True) s as := by
  cases h with
  | nil =>
    obtain rfl := Option.some.inj parts
    exact .inl ⟨s, fun _ => id⟩
  | @whole front w a part whole =>
    rw [classifyAll?_append (fun mem => separator (List.mem_append_left _ mem)),
      classifyAll?_cons_of_part part] at parts
    obtain ⟨as, -, same⟩ := Option.bind_eq_some_iff.mp parts
    obtain rfl := Option.some.inj same
    refine (readBefore_opens s as).append whole.readBefore fun _ _ => ?_
    rintro b ⟨⟩
    exact whole.isOption
  | @valued front name v t attached part bare value =>
    rw [classifyAll?_append (fun mem => separator (List.mem_append_left _ mem)),
      classifyAll?_cons_of_part part, classifyAll?_cons_of_part value] at parts
    obtain ⟨as, -, same⟩ := Option.bind_eq_some_iff.mp parts
    obtain rfl := Option.some.inj same
    have takes (s : State) : ReadBefore (fun _ => True) s
      [.option (.setting t) attached, .positional v] := .inl ⟨_, fun _ rest => .behind bare rest⟩
    refine (readBefore_opens s as).append takes fun _ _ => ?_
    rintro b ⟨⟩
    rfl

theorem ReadBefore.verbosely {such : List Arg → Prop} {s : State} {front back : List Arg}
    {p : Parsed} (before : ReadBefore such s front) (behind : such back)
    (behind_flag : such (.option (.flag .verbose) .nothing :: back))
    (h : Reads s (front ++ back) p) :
    Reads s (front ++ .option (.flag .verbose) .nothing :: back) (p.map .verbosely) := by
  rcases before with ⟨s', reads⟩ | ⟨q, none, reads⟩
  · obtain ⟨q, hq⟩ := exists_reads s' back
    obtain rfl := h.unique (reads behind hq)
    exact reads behind_flag hq.verbosely
  · obtain rfl := h.unique (reads behind)
    rw [Parsed.map_of_none none]
    exact reads behind_flag

theorem StartsWithOption.opens {as : List Arg} (h : StartsWithOption words)
    (parts : classifyAll? words = some as) : Opens as := by
  cases words with
  | nil =>
    obtain rfl := Option.some.inj parts
    simp [Opens]
  | cons w ws =>
    obtain ⟨a, part, option⟩ := h w rfl
    rw [classifyAll?_cons_of_part part] at parts
    obtain ⟨rest, -, rfl⟩ := Option.map_eq_some_iff.mp parts
    rintro b ⟨⟩
    exact option

theorem opens_verbose : Opens (.option (.flag .verbose) .nothing :: as) := by
  rintro a ⟨⟩
  rfl

/-! ### Where words are read in one go -/

/-- A flag does the same to the options of every state, or it ends the reading of all. -/
theorem State.flag_cases (attached : Attached) (f : Flag) :
    (∃ g, ∀ s : State, s.flag attached f = .ok (s.map g)) ∨
      ∃ p, (∀ o, p ≠ .options o) ∧ ∀ s : State, s.flag attached f = .error p := by
  cases f with
  | help =>
    cases attached with
    | nothing => exact .inr ⟨.help, by simp, fun _ => rfl⟩
    | value v => exact .inr ⟨.misuse, by simp, fun _ => rfl⟩
    | tail cs =>
      refine .inr ⟨if helpTail cs then .help else .misuse, ?_, fun _ => rfl⟩
      cases helpTail cs <;> simp
  | json =>
    by_cases bare : attached = .nothing
    · exact .inl ⟨({ · with json := true }), fun _ => if_pos bare⟩
    · exact .inr ⟨.misuse, by simp, fun _ => if_neg bare⟩
  | verbose =>
    by_cases bare : attached = .nothing
    · exact .inl ⟨({ · with verbose := true }), fun _ => if_pos bare⟩
    · exact .inr ⟨.misuse, by simp, fun _ => if_neg bare⟩

/-- After a word too many, parts are read as from any other state with its places filled, except
that no options come of it. -/
theorem Reads.after_extra (f : Options → Options) (h : Reads s as p) (placed : s.placed = true)
    (s' : State) (placed' : s'.placed = true) (extra : s'.extra = true) :
    Reads s' as (p.map f) ∨ Reads s' as .misuse := by
  induction h generalizing s' with
  | finish s => exact .inr (s'.finish_of_extra extra ▸ .finish s')
  | @flag s s₁ flag attached as p read _ ih =>
    rcases State.flag_cases attached flag with ⟨g, goes⟩ | ⟨q, -, ends⟩
    · obtain rfl := Except.ok.inj ((goes s).symm.trans read)
      exact (ih placed (s'.map g) placed' extra).imp (.flag (goes s')) (.flag (goes s'))
    · cases (ends s).symm.trans read
  | @ends s flag attached p as read =>
    rcases State.flag_cases attached flag with ⟨g, goes⟩ | ⟨q, none, ends⟩
    · cases (goes s).symm.trans read
    · obtain rfl := Except.error.inj ((ends s).symm.trans read)
      rw [Parsed.map_of_none none]
      exact .inl (.ends as (ends s'))
  | @inside s t v as p _ ih =>
    exact (ih placed (s'.map (·.set v t)) placed' extra).imp .inside .inside
  | @behind s t attached v as p bare _ ih =>
    exact (ih placed (s'.map (·.set v t)) placed' extra).imp (.behind bare) (.behind bare)
  | valueless s t bare none => exact .inr (.valueless s' t bare none)
  | unknown _ ih =>
    exact (ih placed { s' with extra := true } placed' rfl).imp .unknown .unknown
  | tooMany _ plain _ ih =>
    exact (ih placed { s' with extra := true } placed' rfl).imp (.tooMany placed' plain)
      (.tooMany placed' plain)
  | places free => cases placed.symm.trans free

/-- After a word too many, any further ones make no difference. -/
theorem reads_dropWhile_iff (s : State) (placed : s.placed = true) (extra : s.extra = true) :
    Reads s (as.dropWhile (!·.isOption)) p ↔ Reads s as p := by
  have same : { s with extra := true } = s := by rw [← extra]
  cases as with
  | nil => rfl
  | cons a as =>
    cases option : a.isOption with
    | true => rw [List.dropWhile_cons_of_neg (by simp [option])]
    | false =>
      rw [List.dropWhile_cons_of_pos (by simp [option])]
      constructor
      · intro h
        exact .tooMany placed option (same.symm ▸ h)
      · intro h
        cases h with
        | tooMany _ _ rest => exact same ▸ rest
        | places free => cases placed.symm.trans free
        | _ => cases option

theorem dropWhile_append_of_plain (plain : ∀ a ∈ front, a.isOption = false) :
    (front ++ back).dropWhile (!·.isOption) = back.dropWhile (!·.isOption) :=
  List.dropWhile_append_of_pos fun a mem => by simp [plain a mem]

theorem Behind.dropWhile_eq (h : Behind rest as) :
    rest.dropWhile (!·.isOption) = as.dropWhile (!·.isOption) := by
  obtain ⟨front, rfl, plain⟩ := h
  rw [dropWhile_append_of_plain plain]

/-- Words on both sides of the flag are too many, if the places are filled. -/
theorem Reads.around_flag (placed : s.placed = true) (plain : ∀ a ∈ front, a.isOption = false)
    (words : ¬ Opens back) (h : Reads (State.map .verbosely { s with extra := true }) back p) :
    Reads s (front ++ .option (.flag .verbose) .nothing :: back) p := by
  cases front with
  | nil =>
    rw [List.nil_append]
    refine .flag rfl ?_
    cases back with
    | nil => exact absurd (by simp [Opens]) words
    | cons b back =>
      have first : b.isOption = false := by simpa [Opens] using words
      have more :=
        (reads_dropWhile_iff (State.map .verbosely { s with extra := true }) placed rfl).mpr h
      rw [List.dropWhile_cons_of_pos (by simp [first])] at more
      exact .tooMany placed first more
  | cons c front =>
    obtain ⟨first, others⟩ := List.forall_mem_cons.mp plain
    rw [List.cons_append]
    refine .tooMany placed first ?_
    rw [dropWhile_append_of_plain others]
    exact .flag rfl h

/-- Words that are read in one go are read as before with the flag between them if they were too
many already, and else some of them are too many now. -/
theorem Reads.torn {a : Arg} (h : Reads s (a :: (front ++ back)) p)
    (plain : ∀ b ∈ a :: front, b.isOption = false) :
    Reads s (a :: (front ++ .option (.flag .verbose) .nothing :: back)) (p.map .verbosely) ∨
      Reads s (a :: (front ++ .option (.flag .verbose) .nothing :: back)) .misuse := by
  by_cases words : Opens back
  · exact .inl ((readBefore_opens s (a :: front)).verbosely words opens_verbose h)
  obtain ⟨first, others⟩ := List.forall_mem_cons.mp plain
  generalize all : front ++ back = as at h
  cases h with
  | tooMany placed _ rest =>
    subst all
    refine .inl (.tooMany placed first ?_)
    rw [dropWhile_append_of_plain others] at rest ⊢
    exact ((reads_dropWhile_iff { s with extra := true } placed rfl).mp rest).verbosely
  | places free _ rest =>
    subst all
    have behind : (s.fill (a :: (front ++ back))).2.dropWhile (!·.isOption) =
        back.dropWhile (!·.isOption) := by
      rw [(s.fill_behind _).dropWhile_eq, ← List.cons_append, dropWhile_append_of_plain plain]
    have torn {q : Parsed} (more : Reads
        (State.map .verbosely { (s.fill (a :: front)).1 with extra := true })
        (s.fill (a :: (front ++ back))).2 q) :
        Reads s (a :: (front ++ .option (.flag .verbose) .nothing :: back)) q := by
      refine .places free first ?_
      rw [← List.cons_append, State.fill_append opens_verbose]
      refine .around_flag rfl (fun b mem => plain b ((s.fill_behind _).subset mem)) words ?_
      rw [← reads_dropWhile_iff _ rfl rfl, ← behind, reads_dropWhile_iff _ rfl rfl]
      exact more
    exact (rest.after_extra .verbosely rfl _ rfl rfl).imp torn torn
  | _ => cases first

theorem exists_first_option {a : Arg} (first : a.isOption = false)
    (mixed : ¬ ∀ b ∈ a :: front, b.isOption = false) : ∃ words o rest, front = words ++ o :: rest ∧
      (∀ b ∈ words, b.isOption = false) ∧ o.isOption = true := by
  have later : ∃ b ∈ front, b.isOption = true := by
    by_contra none
    exact mixed (List.forall_mem_cons.mpr ⟨first, by simpa using none⟩)
  obtain ⟨o, found⟩ := Option.isSome_iff_exists.mp (List.find?_isSome.mpr later)
  obtain ⟨option, words, rest, all, plain⟩ := List.find?_eq_some_iff_append.mp found
  exact ⟨words, o, rest, all, by simpa using plain, option⟩

/-- Words in front of an option are read in a step that does not see what comes behind the
option. -/
theorem Reads.words_step {a : Arg} (h : Reads s (a :: (front ++ back)) p)
    (first : a.isOption = false) (mixed : ¬ ∀ b ∈ a :: front, b.isOption = false) :
    ∃ s' rest, rest.length ≤ front.length ∧ Reads s' (rest ++ back) p ∧
      ∀ {xs q}, Reads s' (rest ++ xs) q → Reads s (a :: (front ++ xs)) q := by
  obtain ⟨words, o, front, rfl, plain, option⟩ := exists_first_option first mixed
  have opens (xs : List Arg) : Opens (o :: front ++ xs) := by
    rintro b ⟨⟩
    exact option
  generalize all : words ++ o :: front ++ back = as at h
  cases h with
  | tooMany placed _ rest =>
    subst all
    have left (xs : List Arg) : (words ++ o :: front ++ xs).dropWhile (!·.isOption) =
        o :: front ++ xs := by
      rw [List.append_assoc, dropWhile_append_of_plain plain, List.cons_append,
        List.dropWhile_cons_of_neg (by simp [option])]
    refine ⟨{ s with extra := true }, o :: front, ?_, left back ▸ rest, fun more => ?_⟩
    · rw [List.length_append]
      exact Nat.le_add_left ..
    · exact .tooMany placed first (left _ ▸ more)
  | places free _ rest =>
    subst all
    have left (xs : List Arg) : s.fill (a :: (words ++ o :: front ++ xs)) =
        ((s.fill (a :: words)).1, (s.fill (a :: words)).2 ++ o :: front ++ xs) := by
      rw [List.append_assoc, ← List.cons_append, State.fill_append (opens xs), List.append_assoc]
    refine ⟨(s.fill (a :: words)).1, (s.fill (a :: words)).2 ++ o :: front, ?_, ?_,
      fun more => ?_⟩
    · rw [List.length_append, List.length_append]
      exact Nat.add_le_add_right (s.length_fill_le first) _
    · rw [left] at rest
      exact rest
    · exact .places free first (left _ ▸ more)
  | _ => cases first

/-- With the flag anywhere, parts are read as without it, or they are misuse. -/
theorem Reads.verbosely_or_misuse (h : Reads s (front ++ back) p) :
    Reads s (front ++ .option (.flag .verbose) .nothing :: back) (p.map .verbosely) ∨
      Reads s (front ++ .option (.flag .verbose) .nothing :: back) .misuse := by
  induction n : front.length using Nat.strong_induction_on generalizing s front with
  | _ n ih =>
    subst n
    cases front with
    | nil => exact .inl h.verbosely
    | cons a front =>
      have next {s' : State} {rest : List Arg} (fewer : rest.length ≤ front.length)
          (h : Reads s' (rest ++ back) p) := ih _ (Nat.lt_succ_of_le fewer) h rfl
      rw [List.cons_append] at h ⊢
      cases option : a.isOption with
      | false =>
        by_cases plain : ∀ b ∈ a :: front, b.isOption = false
        · exact h.torn plain
        · obtain ⟨s', rest, fewer, more, step⟩ := h.words_step option plain
          exact (next fewer more).imp step step
      | true =>
        generalize all : front ++ back = as at h
        cases h with
        | flag read rest =>
          subst all
          exact (next (Nat.le_refl _) rest).imp (.flag read) (.flag read)
        | @ends _ flag attached p _ read =>
          have none : ∀ o, p ≠ .options o := by
            rintro o rfl
            exact State.flag_ne_options read
          rw [Parsed.map_of_none none]
          exact .inl (.ends _ read)
        | inside rest =>
          subst all
          exact (next (Nat.le_refl _) rest).imp .inside .inside
        | @behind _ t attached v as p bare rest =>
          cases front with
          | nil => exact .inr (.valueless s t bare (by simp))
          | cons b front =>
            obtain ⟨rfl, rfl⟩ := List.cons.inj all
            exact (next (Nat.le_succ _) rest).imp (.behind bare) (.behind bare)
        | valueless _ t bare none =>
          refine .inl (.valueless s t bare fun v => ?_)
          subst all
          cases front with
          | nil => simp
          | cons b front => exact none v
        | unknown rest =>
          subst all
          exact (next (Nat.le_refl _) rest).imp .unknown .unknown
        | tooMany _ plain => cases option.symm.trans plain
        | places _ plain => cases option.symm.trans plain

/-! ### All words -/

/-- Where the flag is added in front of two dashes, all words have parts, or they are misuse with
and without it. -/
theorem misread_or_parts {front : List String} (flag : IsVerbose w) (separator : "--" ∉ front)
    (back : List String) :
    (read (front ++ back) = .misuse ∧ read (front ++ w :: back) = .misuse) ∨
      ∃ as bs, classifyAll? front = some as ∧ classifyAll? back = some bs ∧
        classifyAll? (front ++ back) = some (as ++ bs) ∧
        classifyAll? (front ++ w :: back) =
          some (as ++ .option (.flag .verbose) .nothing :: bs) := by
  have parts := classifyAll?_append separator back
  have parts' := classifyAll?_append separator (w :: back)
  rw [classifyAll?_cons_of_part flag] at parts'
  cases front_parts : classifyAll? front with
  | none =>
    rw [front_parts] at parts parts'
    exact .inl ⟨by rw [read, parts]; rfl, by rw [read, parts']; rfl⟩
  | some as =>
    cases back_parts : classifyAll? back with
    | none =>
      rw [front_parts, back_parts] at parts parts'
      exact .inl ⟨by rw [read, parts]; rfl, by rw [read, parts']; rfl⟩
    | some bs =>
      rw [front_parts, back_parts] at parts parts'
      exact .inr ⟨as, bs, rfl, rfl, parts, parts'⟩

/-- With the flag, words are read as without it, but that everything is logged. -/
theorem AddsVerbose.read (h : AddsVerbose words words') :
    read words' = (read words).map .verbosely := by
  obtain @⟨w, front, back, flag, separator, beside⟩ := h
  rcases misread_or_parts flag separator back with
    ⟨misread, misread'⟩ | ⟨as, bs, front_parts, back_parts, parts, parts'⟩
  · rw [misread, misread']
    rfl
  · obtain ⟨p, hp⟩ := exists_reads {} (as ++ bs)
    have hp' : Reads {} (as ++ .option (.flag .verbose) .nothing :: bs) (p.map .verbosely) := by
      rcases beside with ends | starts
      · exact (ends.readBefore separator front_parts {}).verbosely trivial trivial hp
      · exact (readBefore_opens {} as).verbosely (starts.opens back_parts) opens_verbose hp
    rw [read_of_reads parts hp, read_of_reads parts' hp']

/-- Wherever the flag is added in front of two dashes, words are read as without it, but that
everything is logged, unless they are misuse then. -/
theorem read_verbosely_or_misuse {front back : List String} (flag : IsVerbose w)
    (separator : "--" ∉ front) :
    read (front ++ w :: back) = (read (front ++ back)).map .verbosely ∨
      read (front ++ w :: back) = .misuse := by
  rcases misread_or_parts flag separator back with ⟨-, misread⟩ | ⟨as, bs, -, -, parts, parts'⟩
  · exact .inr misread
  · obtain ⟨p, hp⟩ := exists_reads {} (as ++ bs)
    rw [read_of_reads parts hp]
    exact hp.verbosely_or_misuse.imp (read_of_reads parts') (read_of_reads parts')

/-! ## Runs with the flag -/

theorem debug_rank_le (l : Level) : Level.debug.rank ≤ l.rank := by
  cases l <;> decide

/-- With the flag, nothing is missing of what was logged without it. -/
theorem optionsLog_verbosely (host : Host) (files : Files) (o : Options) :
    (optionsLog host files o).Sublist (optionsLog host files o.verbosely) := by
  have inspected (path : String) :
      (inspectLog host files o path).Sublist (inspectLog host files o.verbosely path) := by
    have step : settingsStep host files o.verbosely = settingsStep host files o := rfl
    rw [inspectLog, inspectLog, step]
    refine .append (above_sublist_above (debug_rank_le _) _) ?_
    cases (settingsStep host files o).outcome with
    | error s => exact .refl _
    | ok s => exact above_sublist_above (debug_rank_le _) _
  have command : o.verbosely.command = o.command := rfl
  have artifact : o.verbosely.artifact = o.artifact := rfl
  rw [optionsLog, optionsLog, command, artifact]
  split
  · split
    · exact .refl _
    · exact inspected _
  · exact .refl _

theorem seen_verbosely (host : Host) (files : Files) (o : Options) :
    seen (runOptions host files o.verbosely) = seen (runOptions host files o) :=
  seen_runOptions_congr ⟨rfl, rfl, rfl⟩ fun _ _ => rfl

/-- The same is seen where words are read as others with the flag, and nothing is missing from the
log. -/
theorem verbosely_unseen {host : Host} {files : Files}
    (h : read words' = (read words).map .verbosely) :
    seen (run host files words') = seen (run host files words) ∧
      (logged host files words).Sublist (logged host files words') := by
  rw [run, run, logged, logged, h]
  cases read words with
  | help => exact ⟨rfl, .refl _⟩
  | misuse => exact ⟨rfl, .refl _⟩
  | options o => exact ⟨seen_verbosely host files o, optionsLog_verbosely host files o⟩

end FieldProgram.CommandLine

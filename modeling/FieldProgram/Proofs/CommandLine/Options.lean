import FieldProgram.CommandLine.Options
import FieldProgram.Proofs.Matched
import Mathlib.Data.List.Infix
import Mathlib.Data.List.TakeWhile

/-!
# The values that words give to settings

An option may be written as any start of its name that is long enough to tell it from the other
options. Its value follows behind an equals sign in the same word or is the next word. The last
value counts.

* `classify?_eq_setting_iff`: how options that take a value are written;
* `readFrom_sets`: reading the parts of words gives a setting its last value;
* `read_value`: and so does reading words.
-/

namespace FieldProgram.CommandLine

namespace Setting

/-- The option that gives the setting a value. -/
def name : Setting → String
  | entrypoint => "--entrypoint"
  | config => "--config"
  | expectedPrime => "--expected-prime"

/-- The shortest start of the name that no other option has. -/
def least : Setting → String
  | entrypoint => "--en"
  | config => "--c"
  | expectedPrime => "--ex"

/-- Whether the name of the option is written so, in full or shortened. -/
def spelled (t : Setting) (start : List Char) : Bool :=
  t.least.toList.isPrefixOf start && start.isPrefixOf t.name.toList

/-- Whether a word before the separator is the option. -/
def NamedIn (t : Setting) (words : List String) : Prop :=
  ∃ w ∈ words.takeWhile (· ≠ "--"), t.spelled (splitEquals w.toList).1 = true

instance (t : Setting) (words : List String) : Decidable (t.NamedIn words) :=
  inferInstanceAs (Decidable (∃ w ∈ words.takeWhile (· ≠ "--"), _))

/-- The value that a word gives the setting. Where there is none in the word it is the next. -/
def valueIn? (t : Setting) (word : String) (next : Option String) : Option String :=
  if t.spelled (splitEquals word.toList).1 then (splitEquals word.toList).2.or next else none

/-- The last value that words give the setting. A word that is the value of an option is none
itself, so it may be looked at again. -/
def last? (t : Setting) : List String → Option String
  | [] => none
  | w :: ws => if w = "--" then none else (t.last? ws).or (t.valueIn? w ws.head?)

end Setting

/-- The value of a setting. -/
def Options.value (o : Options) : Setting → Option String
  | .entrypoint => o.entrypoint
  | .config => o.config
  | .expectedPrime => o.expectedPrime

variable {t u : Setting}

theorem Options.value_set (o : Options) (v : String) :
    (o.set v u).value t = (if u = t then some v else none).or (o.value t) := by
  cases u <;> cases t <;> rfl

/-! ## How options are written -/

theorem Setting.spelled_iff {start : List Char} :
    t.spelled start = true ↔ t.least.toList <+: start ∧ start <+: t.name.toList := by
  rw [spelled, Bool.and_eq_true, List.isPrefixOf_iff_prefix, List.isPrefixOf_iff_prefix]

/-- An option starts with two dashes and a letter. -/
theorem Setting.spelled_dashes {start : List Char} (h : t.spelled start = true) :
    ∃ c cs, start = '-' :: '-' :: c :: cs := by
  obtain ⟨⟨rest, rfl⟩, -⟩ := spelled_iff.mp h
  cases t <;> exact ⟨_, _, rfl⟩

theorem Setting.eq_of_spelled {start : List Char} (h : t.spelled start = true)
    (h' : u.spelled start = true) : t = u := by
  obtain ⟨⟨a, rfl⟩, -⟩ := spelled_iff.mp h
  obtain ⟨⟨b, same⟩, -⟩ := spelled_iff.mp h'
  cases t <;> cases u <;> first | rfl | simp [least] at same

theorem splitEquals_prefix (cs : List Char) : (splitEquals cs).1 <+: cs := by
  rw [splitEquals]
  split
  · exact List.takeWhile_prefix _
  · exact List.prefix_rfl

theorem mem_options_setting_iff {name : String} :
    (name, .setting t) ∈ options ↔ name = t.name := by
  cases t <;> simp [options, Setting.name]

/-- Among the starts of a name, those long enough are short for nothing else. -/
theorem shortFor_inits (t : Setting) : ∀ start ∈ t.name.toList.inits,
    shortFor start = [.setting t] ↔ t.spelled start = true := by
  cases t <;> decide

theorem shortFor_eq_setting_iff {start : List Char} :
    shortFor start = [.setting t] ↔ t.spelled start = true := by
  have among (h : start <+: t.name.toList) :
      shortFor start = [.setting t] ↔ t.spelled start = true :=
    shortFor_inits t start ((List.mem_inits _ _).mpr h)
  refine ⟨fun h => (among ?_).mp h, fun h => (among (Setting.spelled_iff.mp h).2).mpr h⟩
  have mem : Opt.setting t ∈ shortFor start := by simp [h]
  obtain ⟨⟨name, o⟩, hmem, rfl⟩ := List.mem_map.mp mem
  obtain ⟨named, starts⟩ := List.mem_filter.mp hmem
  obtain rfl := mem_options_setting_iff.mp named
  exact List.isPrefixOf_iff_prefix.mp starts

theorem attachedOf_eq_value_iff {value : Option String} {v : String} :
    attachedOf value = .value v ↔ value = some v := by
  cases value <;> simp [attachedOf]

/-- What is written of an option that takes a value. -/
def Written (t : Setting) (cs : List Char) (attached : Attached) : Prop :=
  t.spelled (splitEquals cs).1 = true ∧ attached = attachedOf (splitEquals cs).2

theorem Written.dashes {cs : List Char} {attached : Attached} (h : Written t cs attached) :
    ∃ c rest, cs = '-' :: '-' :: c :: rest := by
  obtain ⟨c, start, same⟩ := Setting.spelled_dashes h.1
  obtain ⟨rest, hrest⟩ := splitEquals_prefix cs
  rw [same] at hrest
  exact ⟨c, start ++ rest, hrest.symm⟩

theorem option_eq_iff {start : List Char} {o : Opt}
    (known : options.lookup (String.ofList start) = some o) :
    o = .setting t ↔ t.spelled start = true := by
  have all : ∀ e ∈ options, e.2 = .setting t ↔ t.spelled e.1.toList = true := by
    cases t <;> decide
  simpa using all _ (Entries.mem_of_lookup known)

theorem splitEquals_name {name : String} {o : Opt} (h : (name, o) ∈ options) :
    splitEquals name.toList = (name.toList, none) := by
  have all : ∀ e ∈ options, splitEquals e.1.toList = (e.1.toList, none) := by decide
  exact all _ h

/-- The option of a single letter takes no value. -/
theorem letter_ne_setting {c : Char} :
    options.lookup (String.ofList ['-', c]) ≠ some (.setting t) := by
  intro known
  have named := mem_options_setting_iff.mp (Entries.mem_of_lookup known)
  have short : t.name.toList = ['-', c] := by rw [← named, String.toList_ofList]
  cases t <;> simp [Setting.name] at short

theorem abbreviated?_eq_setting_iff {word : String} {cs : List Char} {attached : Attached} :
    abbreviated? word cs = some (.option (.setting t) attached) ↔ Written t cs attached := by
  have unmatched (b : Bool) : some (if b then Arg.positional word else .unknown) ≠
      some (.option (.setting t) attached) := by
    cases b <;> simp
  unfold abbreviated?
  dsimp only
  split
  · split
    · rename_i none
      refine iff_of_false (unmatched _) fun h => ?_
      cases none.symm.trans (shortFor_eq_setting_iff.mpr h.1)
    · rename_i o one
      rw [Written, ← shortFor_eq_setting_iff, one]
      simp [eq_comm]
    · rename_i several
      exact iff_of_false (by simp) fun h => several _ (shortFor_eq_setting_iff.mpr h.1)
  · rename_i c tail other
    refine iff_of_false ?_ fun h => ?_
    · split
      · rename_i o known
        rintro ⟨⟩
        cases letter_ne_setting known
      · exact unmatched _
    · obtain ⟨d, rest, ⟨⟩⟩ := h.dashes
      exact other rfl
  · rename_i none
    refine iff_of_false (unmatched _) fun h => ?_
    obtain ⟨c, rest, rfl⟩ := h.dashes
    exact none _ _ rfl

/-- How options that take a value are written. -/
theorem classify?_eq_setting_iff {word : String} {attached : Attached} :
    classify? word = some (.option (.setting t) attached) ↔ Written t word.toList attached := by
  unfold classify?
  dsimp only
  split
  · rename_i early
    refine iff_of_false (by simp) fun h => ?_
    obtain ⟨c, rest, same⟩ := h.dashes
    simp [same] at early
  · split
    · rename_i o known
      have full := splitEquals_name (Entries.mem_of_lookup known)
      rw [Written, full, ← option_eq_iff (by simpa using known)]
      simp [attachedOf, eq_comm]
    · rename_i name value _ split_eq
      split
      · rename_i o known
        rw [Written, split_eq, ← option_eq_iff known]
        simp [attachedOf, eq_comm]
      · exact abbreviated?_eq_setting_iff
    · exact abbreviated?_eq_setting_iff

/-! ## Reading parts -/

/-- The last value that parts give the setting. -/
inductive Sets (t : Setting) : List Arg → Option String → Prop
  | nil : Sets t [] none
  | inside {as : List Arg} {r : Option String} (u : Setting) (v : String) (rest : Sets t as r) :
    Sets t (.option (.setting u) (.value v) :: as) (r.or (if u = t then some v else none))
  | behind {as : List Arg} {r : Option String} {attached : Attached} (u : Setting) (v : String)
    (bare : ∀ x, attached ≠ .value x) (rest : Sets t as r) :
    Sets t (.option (.setting u) attached :: .positional v :: as)
      (r.or (if u = t then some v else none))
  | other {a : Arg} {as : List Arg} {r : Option String}
    (plain : ∀ u attached, a ≠ .option (.setting u) attached) (rest : Sets t as r) :
    Sets t (a :: as) r

variable {as rest : List Arg} {r : Option String}

/-- What is left of parts when some at the front are gone that are no options. -/
def Behind (rest as : List Arg) : Prop :=
  ∃ front, front ++ rest = as ∧ ∀ a ∈ front, a.isOption = false

namespace Behind

theorem refl (as : List Arg) : Behind as as := ⟨[], rfl, by simp⟩

theorem trans {more : List Arg} (h : Behind more rest) (h' : Behind rest as) : Behind more as := by
  obtain ⟨front, rfl, plain⟩ := h
  obtain ⟨front', rfl, plain'⟩ := h'
  exact ⟨front' ++ front, List.append_assoc .., List.forall_mem_append.mpr ⟨plain', plain⟩⟩

theorem cons {a : Arg} (plain : a.isOption = false) (h : Behind rest as) :
    Behind rest (a :: as) := by
  obtain ⟨front, rfl, others⟩ := h
  exact ⟨a :: front, rfl, List.forall_mem_cons.mpr ⟨plain, others⟩⟩

theorem dropWhile (as : List Arg) : Behind (as.dropWhile (!·.isOption)) as := by
  refine ⟨as.takeWhile (!·.isOption), List.takeWhile_append_dropWhile, fun a ha => ?_⟩
  simpa using List.mem_takeWhile_imp ha

theorem sets (h : Behind rest as) (more : Sets t rest r) : Sets t as r := by
  obtain ⟨front, rfl, plain⟩ := h
  induction front with
  | nil => exact more
  | cons a front ih =>
    obtain ⟨first, others⟩ := List.forall_mem_cons.mp plain
    refine .other ?_ (ih others)
    rintro u attached rfl
    cases first

end Behind

theorem separators_behind (as : List Arg) : Behind (separators as).2 as := by
  fun_induction separators as with
  | case1 as ss rest same ih =>
    rw [same] at ih
    exact ih.cons rfl
  | case2 as _ => exact .refl as

/-- A place takes words from the front that are no options. -/
theorem place_behind (as : List Arg) : Behind (place as).2 as := by
  have first := separators_behind as
  unfold place
  generalize separators as = front at first ⊢
  obtain ⟨front, rest⟩ := front
  refine .trans ?_ first
  cases rest with
  | nil => exact .refl []
  | cons a rest =>
    cases a with
    | positional s => exact (separators_behind rest).cons rfl
    | _ => exact separators_behind _

/-- So does filling both places. -/
theorem State.fill_behind (s : State) (as : List Arg) : Behind (s.fill as).2 as :=
  (place_behind (place as).2).trans (place_behind as)

theorem State.fill_value (s : State) (as : List Arg) :
    (s.fill as).1.options.value t = s.options.value t := by
  cases t <;> rfl

theorem State.flag_value {s s' : State} {attached : Attached} {f : Flag}
    (h : s.flag attached f = .ok s') : s'.options.value t = s.options.value t := by
  cases f with
  | help => cases attached <;> cases h
  | json =>
    simp only [State.flag] at h
    split at h <;> cases h
    cases t <;> rfl
  | verbose =>
    simp only [State.flag] at h
    split at h <;> cases h
    cases t <;> rfl

theorem State.flag_ne_options {s : State} {attached : Attached} {f : Flag} {o : Options} :
    s.flag attached f ≠ .error (.options o) := by
  cases f with
  | help =>
    cases attached with
    | tail cs =>
      simp only [State.flag]
      split <;> simp
    | _ => simp [State.flag]
  | _ =>
    simp only [State.flag]
    split <;> simp

/-- Nothing is left to read but words that are no options. -/
theorem State.finish_eq {s : State} {o : Options} (h : s.finish as = .options o) :
    Behind [] as ∧ o.value t = s.options.value t := by
  have last {s' : State} {rest : List Arg}
      (h : (if s'.extra || !rest.isEmpty then Parsed.misuse else .options s'.options) =
        .options o) : rest = [] ∧ s'.options = o := by
    split at h
    · cases h
    · rename_i none_left
      simp only [Bool.or_eq_true, not_or, Bool.not_eq_true', Bool.not_eq_false,
        List.isEmpty_iff] at none_left
      exact ⟨none_left.2, Parsed.options.inj h⟩
  unfold finish at h
  by_cases placed : s.placed = true
  · rw [if_pos placed] at h
    obtain ⟨rfl, rfl⟩ := last h
    exact ⟨.refl [], rfl⟩
  · rw [if_neg placed] at h
    obtain ⟨none_left, rfl⟩ := last h
    exact ⟨none_left ▸ s.fill_behind as, s.fill_value as⟩

/-- Reading parts gives a setting its last value. -/
theorem readFrom_sets {fuel : Nat} {s : State} {o : Options}
    (h : readFrom fuel s as = .options o) :
    ∃ r, Sets t as r ∧ o.value t = r.or (s.options.value t) := by
  have finished {s : State} {as : List Arg} (h : s.finish as = .options o) :
      ∃ r, Sets t as r ∧ o.value t = r.or (s.options.value t) := by
    obtain ⟨none_left, same⟩ := State.finish_eq h
    exact ⟨none, none_left.sets .nil, same⟩
  have given {u : Setting} {v : String} {r : Option String} {s : State}
      (same : o.value t = r.or ((s.options.set v u).value t)) :
      o.value t = (r.or (if u = t then some v else none)).or (s.options.value t) := by
    rw [same, Options.value_set, Option.or_assoc]
  fun_induction readFrom fuel s as with
  -- No option is left.
  | case1 s as => exact finished h
  | case2 fuel s as _ => exact finished h
  -- A flag comes next, and sets nothing or ends the reading.
  | case3 fuel s f attached as s' flagged _ ih =>
    obtain ⟨r, sets, same⟩ := ih h
    exact ⟨r, .other (by simp) sets, by rw [same, State.flag_value flagged]⟩
  | case4 fuel s f attached as p failed _ =>
    exact absurd (h ▸ failed) State.flag_ne_options
  -- An option comes next with its value in it, behind it or nowhere.
  | case5 fuel s u v as _ ih =>
    obtain ⟨r, sets, same⟩ := ih h
    exact ⟨_, .inside u v sets, given same⟩
  | case6 fuel s u attached v as bare _ ih =>
    obtain ⟨r, sets, same⟩ := ih h
    exact ⟨_, .behind u v bare sets, given same⟩
  | case7 => cases h
  -- What comes next is unknown, or words too many, or the words of the places.
  | case8 fuel s as _ ih =>
    obtain ⟨r, sets, same⟩ := ih h
    exact ⟨r, .other (by simp) sets, same⟩
  | case9 fuel s as _ _ _ _ _ _ _ ih =>
    obtain ⟨r, sets, same⟩ := ih h
    exact ⟨r, (Behind.dropWhile as).sets sets, same⟩
  | case10 fuel s as _ _ _ _ _ _ s' rest filled _ ih =>
    obtain ⟨r, sets, same⟩ := ih h
    have behind := s.fill_behind as
    have value := s.fill_value (t := t) as
    rw [filled] at behind value
    exact ⟨r, behind.sets sets, by rw [same, value]⟩

/-- Parts that name the setting give it a value. -/
theorem Sets.exists_some {attached : Attached} (sets : Sets t as r)
    (named : .option (.setting t) attached ∈ as) : ∃ s, r = some s := by
  have given {u : Setting} (same : t = u) (r : Option String) (v : String) :
      ∃ s, r.or (if u = t then some v else none) = some s := by
    subst same
    cases r <;> simp
  have kept {r : Option String} (more : ∃ s, r = some s) (r' : Option String) :
      ∃ s, r.or r' = some s := by
    obtain ⟨s, rfl⟩ := more
    exact ⟨s, rfl⟩
  induction sets with
  | nil => cases named
  | inside u v _ ih =>
    rcases List.mem_cons.mp named with same | more
    · exact given (by injection same with same; injection same) _ v
    · exact kept (ih more) _
  | behind u v _ _ ih =>
    rcases List.mem_cons.mp named with same | more
    · exact given (by injection same with same; injection same) _ v
    · rcases List.mem_cons.mp more with same | more
      · cases same
      · exact kept (ih more) _
  | other plain _ ih =>
    rcases List.mem_cons.mp named with rfl | more
    · exact absurd rfl (plain _ _)
    · exact ih more

/-- The setting is not named in the parts. -/
def Unnamed (t : Setting) (as : List Arg) : Prop := ∀ attached, .option (.setting t) attached ∉ as

theorem Unnamed.subset (h : Unnamed t as) (fewer : rest ⊆ as) : Unnamed t rest :=
  fun attached mem => h attached (fewer mem)

theorem Unnamed.of_plain (plain : ∀ a ∈ as, a.isOption = false) : Unnamed t as :=
  fun _ mem => Bool.noConfusion (plain _ mem)

theorem Unnamed.ne_head {attached : Attached}
    (h : Unnamed t (.option (.setting u) attached :: as)) : u ≠ t := by
  rintro rfl
  exact h attached (List.mem_cons_self ..)

/-- Parts that do not name the setting give it no value. -/
theorem Sets.eq_none (sets : Sets t as r) (unnamed : Unnamed t as) : r = none := by
  induction sets with
  | nil => rfl
  | inside u v _ ih =>
    rw [ih (unnamed.subset (List.subset_cons_self ..)), if_neg unnamed.ne_head, Option.or_none]
  | behind u v _ _ ih =>
    rw [ih (unnamed.subset (List.subset_cons_of_subset _ (List.subset_cons_self ..))),
      if_neg unnamed.ne_head, Option.or_none]
  | other _ _ ih => exact ih (unnamed.subset (List.subset_cons_self ..))

/-! ## Reading words -/

theorem eq_of_abbreviated? {word v : String} {cs : List Char}
    (h : abbreviated? word cs = some (.positional v)) : v = word := by
  have unmatched {b : Bool}
      (h : some (if b then Arg.positional word else .unknown) = some (.positional v)) :
      v = word := by
    cases b <;> simp_all
  unfold abbreviated? at h
  dsimp only at h
  split at h
  · split at h
    · exact unmatched h
    · cases h
    · cases h
  · split at h
    · cases h
    · exact unmatched h
  · exact unmatched h

/-- A word that is no option stands for itself. -/
theorem eq_of_classify? {word v : String} (h : classify? word = some (.positional v)) :
    v = word := by
  unfold classify? at h
  dsimp only at h
  split at h
  · simpa [eq_comm] using h
  · split at h
    · cases h
    · split at h
      · cases h
      · exact eq_of_abbreviated? h
    · exact eq_of_abbreviated? h

/-- A word that is not the option gives the setting nothing. -/
theorem Setting.valueIn?_of_other {w : String} {a : Arg} (part : classify? w = some a)
    (other : ∀ attached, a ≠ .option (.setting t) attached) (next : Option String) :
    t.valueIn? w next = none := by
  rw [valueIn?]
  refine if_neg fun named => ?_
  have same := classify?_eq_setting_iff.mpr ⟨named, rfl⟩
  exact other _ (Option.some.inj (part.symm.trans same))

theorem Setting.valueIn?_of_option {w : String} {attached : Attached}
    (part : classify? w = some (.option (.setting u) attached)) (next : Option String) :
    t.valueIn? w next = if u = t then (splitEquals w.toList).2.or next else none := by
  obtain ⟨named, -⟩ := classify?_eq_setting_iff.mp part
  rw [valueIn?]
  by_cases same : u = t
  · subst same
    rw [if_pos named, if_pos rfl]
  · rw [if_neg same, if_neg fun named' => same (Setting.eq_of_spelled named named')]

theorem classifyAll?_cons {w : String} {ws : List String}
    (parts : classifyAll? (w :: ws) = some as) :
    w = "--" ∧ as = .separator :: ws.map .positional ∨
      w ≠ "--" ∧ ∃ a rest, classify? w = some a ∧ classifyAll? ws = some rest ∧ as = a :: rest := by
  rw [classifyAll?] at parts
  split at parts
  · rename_i stop
    exact .inl ⟨stop, (Option.some.inj parts).symm⟩
  · rename_i go
    obtain ⟨a, part, more⟩ := Option.bind_eq_some_iff.mp parts
    obtain ⟨rest, others, ⟨⟩⟩ := Option.bind_eq_some_iff.mp more
    exact .inr ⟨go, a, rest, part, others, rfl⟩

/-- Every part but a separator comes from the word at its place. -/
theorem exists_word {ws : List String} {a : Arg} (parts : classifyAll? ws = some (a :: as))
    (other : a ≠ .separator) :
    ∃ w rest, ws = w :: rest ∧ w ≠ "--" ∧ classify? w = some a ∧ classifyAll? rest = some as := by
  cases ws with
  | nil => cases parts
  | cons w rest =>
    rcases classifyAll?_cons parts with ⟨-, ⟨⟩⟩ | ⟨go, _, _, part, others, ⟨⟩⟩
    · exact absurd rfl other
    · exact ⟨w, rest, rfl, go, part, others⟩

theorem exists_mem_of_classifyAll? {ws : List String} {w : String}
    (parts : classifyAll? ws = some as) (mem : w ∈ ws.takeWhile (· ≠ "--")) :
    ∃ a ∈ as, classify? w = some a := by
  induction ws generalizing as with
  | nil => cases mem
  | cons first ws ih =>
    rcases classifyAll?_cons parts with ⟨rfl, -⟩ | ⟨go, a, rest, part, others, rfl⟩
    · simp at mem
    · rw [List.takeWhile_cons_of_pos (by simpa using go)] at mem
      rcases List.mem_cons.mp mem with rfl | more
      · exact ⟨a, List.mem_cons_self .., part⟩
      · obtain ⟨b, hb, found⟩ := ih others more
        exact ⟨b, List.mem_cons_of_mem _ hb, found⟩

/-- What parts give a setting, the words give it. -/
theorem Sets.last?_eq (sets : Sets t as r) {ws : List String} (parts : classifyAll? ws = some as) :
    t.last? ws = r := by
  induction sets generalizing ws with
  | nil =>
    cases ws with
    | nil => rfl
    | cons w ws =>
      obtain ⟨-, none⟩ | ⟨-, _, _, -, -, none⟩ := classifyAll?_cons parts <;> cases none
  | inside u v _ ih =>
    obtain ⟨w, rest, rfl, go, part, others⟩ := exists_word parts (by simp)
    have attached : (splitEquals w.toList).2 = some v :=
      attachedOf_eq_value_iff.mp (classify?_eq_setting_iff.mp part).2.symm
    rw [Setting.last?, if_neg go, ih others, Setting.valueIn?_of_option part, attached,
      Option.some_or]
  | behind u v bare _ ih =>
    obtain ⟨w, _, rfl, go, part, others⟩ := exists_word parts (by simp)
    have attached : (splitEquals w.toList).2 = none := by
      cases h : (splitEquals w.toList).2 with
      | none => rfl
      | some x =>
        refine absurd ?_ (bare x)
        rw [(classify?_eq_setting_iff.mp part).2, h, attachedOf]
    -- The value is a word of its own, which is no option and gives nothing.
    obtain ⟨w', rest, rfl, go', part', others'⟩ := exists_word others (by simp)
    obtain rfl := eq_of_classify? part'
    rw [Setting.last?, if_neg go, Setting.last?, if_neg go', ih others',
      Setting.valueIn?_of_other part' (by simp), Option.or_none,
      Setting.valueIn?_of_option part, attached, Option.none_or, List.head?_cons]
  | other plain more ih =>
    cases ws with
    | nil => cases parts
    | cons w ws =>
      rcases classifyAll?_cons parts with ⟨rfl, ⟨⟩⟩ | ⟨go, _, _, part, others, ⟨⟩⟩
      · rw [Setting.last?, if_pos rfl, more.eq_none (.of_plain ?_)]
        intro a ha
        obtain ⟨s, -, rfl⟩ := List.mem_map.mp ha
        rfl
      · rw [Setting.last?, if_neg go, ih others, Setting.valueIn?_of_other part (plain t)]
        exact Option.or_none

theorem read_sets {words : List String} {o : Options} (h : read words = .options o) :
    ∃ as, classifyAll? words = some as ∧ Sets t as (o.value t) := by
  rw [read] at h
  split at h
  · cases h
  · rename_i as parts
    obtain ⟨r, sets, same⟩ := readFrom_sets (t := t) h
    have unset : ({} : Options).value t = none := by cases t <;> rfl
    rw [unset, Option.or_none] at same
    exact ⟨as, parts, same ▸ sets⟩

/-- The value that is read is the last in the words. -/
theorem read_value {words : List String} {o : Options} (h : read words = .options o) :
    o.value t = t.last? words := by
  obtain ⟨as, parts, sets⟩ := read_sets h
  exact (sets.last?_eq parts).symm

/-- Words that can be read give a value to every setting that they name. -/
theorem Setting.NamedIn.last?_eq_some {words : List String} (named : t.NamedIn words)
    {o : Options} (h : read words = .options o) : ∃ s, t.last? words = some s := by
  obtain ⟨as, parts, sets⟩ := read_sets (t := t) h
  obtain ⟨w, mem, spelled⟩ := named
  obtain ⟨a, ha, part⟩ := exists_mem_of_classifyAll? parts mem
  have option := classify?_eq_setting_iff.mpr ⟨spelled, rfl⟩
  obtain rfl := Option.some.inj (part.symm.trans option)
  rw [sets.last?_eq parts]
  exact sets.exists_some ha

end FieldProgram.CommandLine

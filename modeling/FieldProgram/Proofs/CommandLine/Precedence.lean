import FieldProgram.Proofs.CommandLine.Blocks
import FieldProgram.Proofs.CommandLine.ExpectedPrime
import FieldProgram.Proofs.CommandLine.Reload
import FieldProgram.Proofs.CommandLine.Seen
import FieldProgram.Proofs.CommandLine.Settings
import FieldProgram.Proofs.Numeral.Literal

/-!
# A file of settings and flags

A file of settings says what the flags for the entry point and the prime say, and flags count more.
So a run with the file is seen as a run with flags instead: those that say what the file says, in
front of those that were given.

* `run_completed`: flags in front of others make up for the file;
* `run_config_as_flags`: the file as its own flags, and as none where the others say everything.
-/

namespace FieldProgram.CommandLine

open Log Numeral

variable {host : Host} {files : Files} {o o' : Options} {s s' : Settings} {path : String}

/-! ## Settings in force -/

/-- The word names a file of settings that are accepted. -/
structure Accepts (host : Host) (files : Files) (word : String) (s : Settings) : Prop where
  not_empty : word ≠ ""
  short : files.isTooLong (FilePath.ofString word) = false
  loaded : Settings.load host.room.inner files (FilePath.ofString word) = .ok s

theorem Accepts.settingsStep {word : String} (accepts : Accepts host files word s)
    (config : o.config = some word) : (settingsStep host files o).outcome = .ok s := by
  rw [settingsStep_outcome config accepts.not_empty, accepts.short, accepts.loaded]
  rfl

theorem entrypointOf_given {v : String} (given : o.entrypoint = some v) (full : v ≠ "") :
    entrypointOf o s = v := by
  rw [entrypointOf, given]
  exact if_neg full

/-- A prime that the options give does not depend on the settings. -/
theorem primeStep_given {v : String} (given : o.expectedPrime = some v) (full : v ≠ "") :
    primeStep o s = match integerOfText v with
      | .ok p => pure (some p)
      | .error fault => refuse 1 ("Invalid --expected-prime: " ++ fault.message) := by
  unfold primeStep
  rw [given]
  split
  · rename_i h
    cases h
  · rename_i h
    exact absurd (Option.some.inj h) full
  · rename_i text _ h
    obtain rfl := Option.some.inj h
    rfl

/-- The settings as values of the options, of which the prime is in hexadecimal digits. -/
def flagsOf (entrypoint : String) (prime : Option Int) : List (Setting × String) :=
  (.entrypoint, entrypoint) :: (prime.map fun p => (.expectedPrime, hexText p)).toList

/-! ## Values -/

variable {t : Setting} {l m : List (Setting × String)}

/-- The last value that is given to a setting. -/
def lastGiven (t : Setting) : List (Setting × String) → Option String
  | [] => none
  | (u, v) :: l => (lastGiven t l).or (if u = t then some v else none)

theorem lastGiven_append : lastGiven t (l ++ m) = (lastGiven t m).or (lastGiven t l) := by
  induction l with
  | nil => simp [lastGiven]
  | cons e l ih => rw [List.cons_append, lastGiven, ih, lastGiven, Option.or_assoc]

theorem mem_of_lastGiven {v : String} (h : lastGiven t l = some v) : (t, v) ∈ l := by
  induction l with
  | nil => cases h
  | cons e l ih =>
    obtain ⟨u, w⟩ := e
    rcases Option.or_eq_some_iff.mp h with later | ⟨-, first⟩
    · exact List.mem_cons_of_mem _ (ih later)
    · obtain ⟨rfl, rfl⟩ : u = t ∧ w = v := by simpa using first
      exact List.mem_cons_self ..

theorem lastGiven_eq_none (other : ∀ e ∈ l, e.1 ≠ t) : lastGiven t l = none :=
  Option.eq_none_iff_forall_ne_some.mpr fun _ h => other _ (mem_of_lastGiven h) rfl

theorem exists_lastGiven (named : ∃ e ∈ l, e.1 = t) : ∃ v, lastGiven t l = some v := by
  induction l with
  | nil => simp at named
  | cons e l ih =>
    obtain ⟨u, w⟩ := e
    rw [lastGiven]
    obtain ⟨x, mem, same⟩ := named
    rcases List.mem_cons.mp mem with rfl | mem
    · rw [if_pos same]
      cases lastGiven t l <;> simp
    · obtain ⟨v, hv⟩ := ih ⟨x, mem, same⟩
      exact ⟨v, by rw [hv, Option.some_or]⟩

theorem value_setAll : (o.setAll l).value t = (lastGiven t l).or (o.value t) := by
  induction l generalizing o with
  | nil => rfl
  | cons e l ih =>
    show ((o.set e.2 e.1).setAll l).value t = _
    rw [ih, Options.value_set, lastGiven, Option.or_assoc]

theorem sameTask_setAll : SameTask (o.setAll l) o := by
  induction l generalizing o with
  | nil => exact ⟨rfl, rfl, rfl⟩
  | cons e l ih =>
    have first : SameTask (o.set e.2 e.1) o := by
      obtain ⟨t, v⟩ := e
      cases t <;> exact ⟨rfl, rfl, rfl⟩
    have rest := ih (o := o.set e.2 e.1)
    exact ⟨rest.1.trans first.1, rest.2.trans first.2, rest.3.trans first.3⟩

/-! ## A file of settings and flags -/

variable {word e : String}

/-- Flags have a text each, and do not name a file of settings. -/
def AreFlags (l : List (Setting × String)) : Prop := ∀ x ∈ l, x.1 ≠ .config ∧ x.2 ≠ ""

theorem AreFlags.lastGiven_config (flags : AreFlags l) : lastGiven .config l = none :=
  lastGiven_eq_none fun x hx => (flags x hx).1

theorem AreFlags.full {v : String} (flags : AreFlags l) (h : lastGiven t l = some v) : v ≠ "" :=
  (flags _ (mem_of_lastGiven h)).2

/-- An accepted file of settings and flags do the same as other flags, if these give what the first
ones give, or else what the file says. -/
theorem seen_of_flags (accepts : Accepts host files word s) (config : o.config = some word)
    (task : SameTask o o') (none : o'.config = none)
    (entrypoint : entrypointOf o s = entrypointOf o' {})
    (prime : (primeStep o s).outcome = (primeStep o' {}).outcome) :
    seen (runOptions host files o) = seen (runOptions host files o') := by
  refine seen_runOptions_congr task fun path _ => ?_
  have defaults : (settingsStep host files o').outcome = .ok {} := by
    rw [settingsStep, none]
    rfl
  rw [inspectOutcome, inspectOutcome, accepts.settingsStep config, defaults]
  exact inspectStep_outcome_congr task.json prime entrypoint rfl fun _ _ => rfl

/-- Flags in front of others complete them: they give what the settings say wherever the others
give nothing. -/
structure Completes (first l : List (Setting × String)) (s : Settings) (e : String) : Prop where
  config : lastGiven .config first = none
  entrypoint : lastGiven .entrypoint l = none → lastGiven .entrypoint first = some e
  expectedPrime : lastGiven .expectedPrime l = none →
    lastGiven .expectedPrime first = s.expectedPrime.map hexText

theorem flagsOf_completes (l : List (Setting × String)) (s : Settings) (e : String) :
    Completes (flagsOf e s.expectedPrime) l s e where
  config := by cases s.expectedPrime <;> rfl
  entrypoint _ := by cases s.expectedPrime <;> rfl
  expectedPrime _ := by cases s.expectedPrime <;> rfl

/-- Nothing is needed to complete flags that give everything. -/
theorem completes_of_all (all : ∀ t, t ≠ .config → ∃ x ∈ l, x.1 = t) : Completes [] l s e where
  config := rfl
  entrypoint none := by
    obtain ⟨v, hv⟩ := exists_lastGiven (all .entrypoint (by simp))
    cases none.symm.trans hv
  expectedPrime none := by
    obtain ⟨v, hv⟩ := exists_lastGiven (all .expectedPrime (by simp))
    cases none.symm.trans hv

section Merged

variable {first : List (Setting × String)}

theorem value_withConfig (unset : ∀ t, o.value t = none) (other : .config ≠ t) :
    (o.setAll (l ++ (.config, word) :: m)).value t = lastGiven t (l ++ m) := by
  rw [value_setAll, unset, Option.or_none, lastGiven_append, lastGiven_append, lastGiven,
    if_neg other, Option.or_none]

theorem value_completed (unset : ∀ t, o.value t = none) :
    (o.setAll (first ++ (l ++ m))).value t = (lastGiven t (l ++ m)).or (lastGiven t first) := by
  rw [value_setAll, unset, Option.or_none, lastGiven_append]

theorem entrypointOf_completed (unset : ∀ t, o.value t = none) (flags : AreFlags (l ++ m))
    (completes : Completes first (l ++ m) s e) (named : s.entrypoint = e) (full : e ≠ "") :
    entrypointOf (o.setAll (l ++ (.config, word) :: m)) s =
      entrypointOf (o.setAll (first ++ (l ++ m))) {} := by
  have with_config : (o.setAll (l ++ (.config, word) :: m)).entrypoint = _ :=
    value_withConfig (t := .entrypoint) unset (by simp)
  have completed : (o.setAll (first ++ (l ++ m))).entrypoint = _ :=
    value_completed (t := .entrypoint) unset
  cases given : lastGiven .entrypoint (l ++ m) with
  | some v =>
    rw [given] at with_config completed
    rw [entrypointOf_given with_config (flags.full given),
      entrypointOf_given completed (flags.full given)]
  | none =>
    rw [given] at with_config
    rw [given, completes.entrypoint given, Option.none_or] at completed
    rw [entrypointOf_given completed full, entrypointOf, with_config]
    exact named

theorem primeStep_completed (unset : ∀ t, o.value t = none) (flags : AreFlags (l ++ m))
    (completes : Completes first (l ++ m) s e) :
    (primeStep (o.setAll (l ++ (.config, word) :: m)) s).outcome =
      (primeStep (o.setAll (first ++ (l ++ m))) {}).outcome := by
  have with_config : (o.setAll (l ++ (.config, word) :: m)).expectedPrime = _ :=
    value_withConfig (t := .expectedPrime) unset (by simp)
  have completed : (o.setAll (first ++ (l ++ m))).expectedPrime = _ :=
    value_completed (t := .expectedPrime) unset
  cases given : lastGiven .expectedPrime (l ++ m) with
  | some v =>
    rw [given] at with_config completed
    rw [primeStep_given with_config (flags.full given),
      primeStep_given completed (flags.full given)]
  | none =>
    rw [given] at with_config
    rw [given, completes.expectedPrime given, Option.none_or] at completed
    rw [primeStep, with_config]
    cases prime : s.expectedPrime with
    | none =>
      rw [prime] at completed
      rw [primeStep, completed]
      rfl
    | some p =>
      rw [prime] at completed
      have digits : hexText p ≠ "" := by simp [hexText]
      rw [primeStep_given completed digits, integerOfText_hexText]

/-- A file of settings among flags does the same as flags in front of them that complete them. -/
theorem run_completed (accepts : Accepts host files word s) (named : s.entrypoint = e)
    (full : e ≠ "") {front back before config behind flags : List String}
    (around : Around front back) (areFlags : AreFlags (l ++ m))
    (completes : Completes first (l ++ m) s e) (some : first ++ (l ++ m) ≠ [])
    (hbefore : Gives l before) (hconfig : Gives [(.config, word)] config) (hbehind : Gives m behind)
    (hflags : Gives (first ++ (l ++ m)) flags) :
    seen (run host files (front ++ (before ++ (config ++ behind) ++ back))) =
      seen (run host files (front ++ (flags ++ back))) := by
  obtain ⟨p, unset, reads⟩ := around.exists_read
  have asked := reads _ _ (hbefore.append (hconfig.append hbehind)) (by simp)
  have asked' := reads _ _ hflags some
  rw [run, asked, run, asked']
  cases p with
  | help => rfl
  | misuse => rfl
  | options o =>
    have task : SameTask (o.setAll (l ++ (.config, word) :: m)) (o.setAll (first ++ (l ++ m))) := by
      have with_config := sameTask_setAll (o := o) (l := l ++ (.config, word) :: m)
      have completed := sameTask_setAll (o := o) (l := first ++ (l ++ m))
      exact ⟨with_config.1.trans completed.1.symm, with_config.2.trans completed.2.symm,
        with_config.3.trans completed.3.symm⟩
    have given : (o.setAll (l ++ (.config, word) :: m)).value .config = Option.some word := by
      have behind : lastGiven .config m = none :=
        lastGiven_eq_none fun x hx => (areFlags x (List.mem_append_right _ hx)).1
      rw [value_setAll, lastGiven_append, lastGiven, behind, if_pos rfl, Option.none_or,
        Option.some_or, Option.some_or]
    have none : (o.setAll (first ++ (l ++ m))).value .config = none := by
      rw [value_completed (unset o rfl), areFlags.lastGiven_config, completes.config,
        Option.none_or]
    exact seen_of_flags accepts given task none
      (entrypointOf_completed (unset o rfl) areFlags completes named full)
      (primeStep_completed (unset o rfl) areFlags completes)

end Merged

/-- A file of settings counts as flags in front of all others: the same is seen of a run if the
option for the file is left out and flags that say what the file says come first. Where both flags
are given, nothing has to come in place of the file. -/
theorem run_config_as_flags (accepts : Accepts host files word s) :
    ∃ e : String, s.entrypoint = e ∧ e ≠ "" ∧
      ∀ (front back before config behind flags : List String) (l m : List (Setting × String)),
        Around front back → AreFlags (l ++ m) → Gives l before → Gives [(.config, word)] config →
        Gives m behind → Gives (flagsOf e s.expectedPrime) flags →
        seen (run host files (front ++ (before ++ (config ++ behind) ++ back))) =
            seen (run host files (front ++ (flags ++ (before ++ behind) ++ back))) ∧
          ((∀ t, t ≠ .config → ∃ x ∈ l ++ m, x.1 = t) →
            seen (run host files (front ++ (before ++ (config ++ behind) ++ back))) =
              seen (run host files (front ++ (before ++ behind ++ back)))) := by
  obtain ⟨e, named, full⟩ := Settings.load_entrypoint accepts.loaded
  refine ⟨e, named, full, ?_⟩
  intro front back before config behind flags l m around areFlags hbefore hconfig hbehind hflags
  refine ⟨run_completed accepts named full around areFlags (flagsOf_completes _ s e)
    (by simp [flagsOf]) hbefore hconfig hbehind (hflags.append (hbefore.append hbehind)),
    fun all => ?_⟩
  have some : l ++ m ≠ [] := by
    obtain ⟨x, mem, -⟩ := all .entrypoint (by simp)
    exact List.ne_nil_of_mem mem
  exact run_completed accepts named full around areFlags (completes_of_all all) some
    hbefore hconfig hbehind (hbefore.append hbehind)

/-- A file of settings beside an artifact. -/
def filesBeside (settings : String) : Files := fun path =>
  if path = FilePath.ofString "c.yaml" then some (.file (Text.Utf8.encode settings.toList))
  else twoFiles path

/-- The settings of a file with an entry point and a prime. -/
def startSettings : Settings := { entrypoint := "start", expectedPrime := some 7 }

/-- That file, beside an artifact. -/
def startFiles : Files := filesBeside "entrypoint: start\nexpected_prime: 7\n"

theorem startFiles_accepts : Accepts .standard startFiles "c.yaml" startSettings where
  not_empty := by decide
  short := rfl
  loaded := by
    have loaded : (Settings.load Host.standard.room.inner startFiles
      (FilePath.ofString "c.yaml")).toOption = some startSettings := by decide +kernel
    exact Except.toOption_eq_some_iff.mp loaded

theorem run_start_settings : Accepts .standard startFiles "c.yaml" startSettings ∧
    seen (run .standard startFiles ["inspect", "a.json", "--config", "c.yaml", "--json"]) =
      seen (run .standard startFiles ["inspect", "a.json", "--entrypoint=start",
        "--expected-prime=0x7", "--json"]) ∧
    seen (run .standard startFiles ["inspect", "a.json", "--ent", "main", "--config=c.yaml",
        "--expected-prime=7"]) =
      seen (run .standard startFiles ["inspect", "a.json", "--ent", "main",
        "--expected-prime=7"]) := by
  obtain ⟨e, named, full, same⟩ := run_config_as_flags startFiles_accepts
  obtain rfl : e = "start" := Text.ofString_inj.mp named.symm
  have flags : Gives (flagsOf "start" startSettings.expectedPrime)
      ["--entrypoint=start", "--expected-prime=0x7"] :=
    .inside (by decide) (by decide) (.inside (by decide) (by decide) .nil)
  have around (back : List String) (plain : ∀ t : Setting, ¬ t.NamedIn back) :
      Around ["inspect", "a.json"] back :=
    ⟨by decide, fun t => by cases t <;> decide, plain⟩
  have json := same ["inspect", "a.json"] ["--json"] [] ["--config", "c.yaml"] []
    ["--entrypoint=start", "--expected-prime=0x7"] [] []
    (around _ fun t => by cases t <;> decide) (by simp [AreFlags]) .nil
    (.behind (by decide) (by decide) (by decide) .nil) .nil flags
  have given := same ["inspect", "a.json"] [] ["--ent", "main"] ["--config=c.yaml"]
    ["--expected-prime=7"] ["--entrypoint=start", "--expected-prime=0x7"]
    [(.entrypoint, "main")] [(.expectedPrime, "7")]
    (around _ fun t => by cases t <;> decide) (by simp [AreFlags])
    (.behind (by decide) (by decide) (by decide) .nil) (.inside (by decide) (by decide) .nil)
    (.inside (by decide) (by decide) .nil) flags
  refine ⟨startFiles_accepts, json.1, given.2 fun t other => ?_⟩
  cases t with
  | config => exact absurd rfl other
  | entrypoint => exact ⟨_, List.mem_cons_self .., rfl⟩
  | expectedPrime => exact ⟨_, List.mem_cons_of_mem _ (List.mem_cons_self ..), rfl⟩

end FieldProgram.CommandLine

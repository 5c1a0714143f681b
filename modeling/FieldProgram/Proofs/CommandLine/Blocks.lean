import FieldProgram.Proofs.CommandLine.Reading

/-!
# Blocks of settings among words

Words that give values to settings may be exchanged for others that do. The words around them are
read in the same way, and the values are all that makes a difference.

* `Gives`: how words give values to settings;
* `Around.exists_read`: what words around them are read as.
-/

namespace FieldProgram.CommandLine

variable {t : Setting} {s : State} {as : List Arg} {p : Parsed}

/-! ## Blocks of settings -/

/-- The options after values have been given to settings. -/
def Options.setAll (o : Options) (l : List (Setting × String)) : Options :=
  l.foldl (fun o e => o.set e.2 e.1) o

/-- Parts that give values to settings, in this order, and nothing else. -/
inductive Block : List (Setting × String) → List Arg → Prop
  | nil : Block [] []
  | inside {t : Setting} {v : String} {l : List (Setting × String)} {as : List Arg}
    (rest : Block l as) : Block ((t, v) :: l) (.option (.setting t) (.value v) :: as)
  | behind {t : Setting} {v : String} {attached : Attached} {l : List (Setting × String)}
    {as : List Arg} (bare : ∀ x, attached ≠ .value x) (rest : Block l as) :
    Block ((t, v) :: l) (.option (.setting t) attached :: .positional v :: as)

variable {l : List (Setting × String)} {block : List Arg}

theorem Block.reads (h : Block l block) (rest : Reads (s.map (·.setAll l)) as p) :
    Reads s (block ++ as) p := by
  induction h generalizing s with
  | nil => exact rest
  | inside _ ih => exact .inside (ih rest)
  | behind bare _ ih => exact .behind bare (ih rest)

theorem Block.opens (h : Block l block) (some : l ≠ []) : Opens (block ++ as) := by
  cases h with
  | nil => exact absurd rfl some
  | inside =>
    rintro a ⟨⟩
    rfl
  | behind =>
    rintro a ⟨⟩
    rfl

theorem Unseen.comp {f g : Options → Options} (h : Unseen g as) (h' : Unseen f as) :
    Unseen (fun o => g (f o)) as where
  places o command artifact := (congrArg g (h'.places o command artifact)).trans (h.places ..)
  json o := (congrArg g (h'.json o)).trans (h.json _)
  verbose o := (congrArg g (h'.verbose o)).trans (h.verbose _)
  set named o v := (congrArg g (h'.set named o v)).trans (h.set named ..)

theorem unseen_set (v : String) (unnamed : Unnamed t as) : Unseen (·.set v t) as where
  places o command artifact := by cases t <;> rfl
  json o := by cases t <;> rfl
  verbose o := by cases t <;> rfl
  set {u attached} named o w := by
    have other : u ≠ t := fun same => unnamed attached (same ▸ named)
    cases t <;> cases u <;> first | rfl | exact absurd rfl other

theorem unseen_setAll (l : List (Setting × String)) (unnamed : ∀ t, Unnamed t as) :
    Unseen (·.setAll l) as := by
  induction l with
  | nil => exact ⟨fun _ _ _ => rfl, fun _ => rfl, fun _ => rfl, fun _ _ _ => rfl⟩
  | cons e l ih => exact ih.comp (unseen_set e.2 (unnamed e.1))

/-- Settings that parts do not name are as they were. -/
theorem Reads.value {o : Options} (h : Reads s as (.options o)) (unnamed : Unnamed t as) :
    o.value t = s.options.value t := by
  obtain ⟨r, sets, same⟩ := readFrom_sets (t := t) (h.eq (Nat.le_refl _))
  rw [same, sets.eq_none unnamed, Option.none_or]

/-- Between parts that name no settings, a block of settings gives the options its values, and that
is all it does. -/
theorem exists_reads_block {front back : List Arg} (unnamed_front : ∀ t, Unnamed t front)
    (unnamed_back : ∀ t, Unnamed t back) :
    ∃ p : Parsed, (∀ o, p = .options o → ∀ t, o.value t = none) ∧
      ∀ l block, Block l block → l ≠ [] →
        Reads {} (front ++ (block ++ back)) (p.map (·.setAll l)) := by
  rcases readInFront {} front with ⟨s, passes⟩ | ⟨p, stops⟩
  · obtain ⟨p, hp⟩ := exists_reads s back
    refine ⟨p, ?_, fun l block h some => ?_⟩
    · rintro o rfl t
      rw [hp.value (unnamed_back t), passes.kept t (unnamed_front t)]
      cases t <;> rfl
    · exact passes.reads (h.opens some) (h.reads (hp.map (unseen_setAll l unnamed_back)))
  · refine ⟨p, fun o same => absurd same (stops.none o), fun l block h some => ?_⟩
    rw [Parsed.map_of_none stops.none]
    exact stops.reads (h.opens some)

/-! ## Words -/

theorem read_of_reads {words : List String} (parts : classifyAll? words = some as)
    (h : Reads {} as p) : read words = p := by
  rw [read, parts]
  exact h.eq (Nat.le_succ _)

theorem classify?_separator : classify? "--" = none := by decide

theorem not_separator_of_classify? {w : String} {a : Arg} (part : classify? w = some a) :
    w ≠ "--" := by
  rintro rfl
  cases classify?_separator.symm.trans part

theorem classifyAll?_cons_of_part {w : String} {a : Arg} (part : classify? w = some a)
    (ws : List String) : classifyAll? (w :: ws) = (classifyAll? ws).map (a :: ·) := by
  rw [classifyAll?, if_neg (not_separator_of_classify? part), part]
  cases classifyAll? ws <;> rfl

theorem classifyAll?_append {front : List String} (separator : "--" ∉ front) (ws : List String) :
    classifyAll? (front ++ ws) =
      (classifyAll? front).bind fun as => (classifyAll? ws).map (as ++ ·) := by
  induction front with
  | nil => simp [classifyAll?]
  | cons w front ih =>
    obtain ⟨go, others⟩ := List.ne_and_not_mem_of_not_mem_cons separator
    rw [List.cons_append, classifyAll?, if_neg go.symm, ih others, classifyAll?, if_neg go.symm]
    cases classify? w <;> cases classifyAll? front <;> cases classifyAll? ws <;> rfl

/-- Words that do not name a setting have no parts that do. -/
theorem unnamed_of_not_namedIn {words : List String} (parts : classifyAll? words = some as)
    (h : ¬ t.NamedIn words) : Unnamed t as := by
  induction words generalizing as with
  | nil =>
    obtain rfl := Option.some.inj parts
    exact fun _ => List.not_mem_nil
  | cons w ws ih =>
    rcases classifyAll?_cons parts with ⟨-, rfl⟩ | ⟨go, a, rest, part, others, rfl⟩
    · refine .of_plain (List.forall_mem_cons.mpr ⟨rfl, fun a mem => ?_⟩)
      obtain ⟨s, -, rfl⟩ := List.mem_map.mp mem
      rfl
    · have taken : (w :: ws).takeWhile (· ≠ "--") = w :: ws.takeWhile (· ≠ "--") :=
        List.takeWhile_cons_of_pos (by simpa using go)
      rw [Setting.NamedIn, taken] at h
      have later : Unnamed t rest := ih others fun ⟨v, mem, named⟩ =>
        h ⟨v, List.mem_cons_of_mem _ mem, named⟩
      intro attached mem
      rcases List.mem_cons.mp mem with rfl | mem
      · exact h ⟨w, List.mem_cons_self .., (classify?_eq_setting_iff.mp part).1⟩
      · exact later attached mem

/-- Words that give values to settings, in this order, and do nothing else. A value stands in the
word of its option or, if it is no option itself, in the next one. -/
inductive Gives : List (Setting × String) → List String → Prop
  | nil : Gives [] []
  | inside {t : Setting} {v w : String} {l : List (Setting × String)} {ws : List String}
    (named : t.spelled (splitEquals w.toList).1 = true)
    (value : (splitEquals w.toList).2 = some v) (rest : Gives l ws) : Gives ((t, v) :: l) (w :: ws)
  | behind {t : Setting} {v w : String} {l : List (Setting × String)} {ws : List String}
    (named : t.spelled (splitEquals w.toList).1 = true) (bare : (splitEquals w.toList).2 = none)
    (value : classify? v = some (.positional v)) (rest : Gives l ws) :
    Gives ((t, v) :: l) (w :: v :: ws)

namespace Gives

variable {words words' : List String} {m : List (Setting × String)}

theorem append (h : Gives l words) (h' : Gives m words') : Gives (l ++ m) (words ++ words') := by
  induction h with
  | nil => exact h'
  | inside named value _ ih => exact .inside named value ih
  | behind named bare value _ ih => exact .behind named bare value ih

theorem exists_block (h : Gives l words) : ∃ block, Block l block ∧
    ∀ ws, classifyAll? (words ++ ws) = (classifyAll? ws).map (block ++ ·) := by
  induction h with
  | nil => exact ⟨[], .nil, fun ws => by simp⟩
  | @inside t v w l words named value _ ih =>
    obtain ⟨block, hblock, parts⟩ := ih
    have part : classify? w = some (.option (.setting t) (.value v)) :=
      classify?_eq_setting_iff.mpr ⟨named, by rw [value]; rfl⟩
    refine ⟨_, .inside hblock, fun ws => ?_⟩
    rw [List.cons_append, classifyAll?_cons_of_part part, parts, Option.map_map]
    rfl
  | @behind t v w l words named bare value _ ih =>
    obtain ⟨block, hblock, parts⟩ := ih
    have part : classify? w = some (.option (.setting t) .nothing) :=
      classify?_eq_setting_iff.mpr ⟨named, by rw [bare]; rfl⟩
    have nothing : ∀ x, Attached.nothing ≠ .value x := by simp
    refine ⟨_, .behind nothing hblock, fun ws => ?_⟩
    rw [List.cons_append, List.cons_append, classifyAll?_cons_of_part part,
      classifyAll?_cons_of_part value, parts, Option.map_map, Option.map_map]
    rfl

end Gives

/-- The words around others: they name no settings, and those in front do not end the options. -/
structure Around (front back : List String) : Prop where
  separator : "--" ∉ front
  front (t : Setting) : ¬ t.NamedIn front
  back (t : Setting) : ¬ t.NamedIn back

/-- Whatever words give values to settings, those around them are read in the same way. -/
theorem Around.exists_read {front back : List String} (around : Around front back) :
    ∃ p : Parsed, (∀ o, p = .options o → ∀ t, o.value t = none) ∧
      ∀ l words, Gives l words → l ≠ [] →
        read (front ++ (words ++ back)) = p.map (·.setAll l) := by
  have misread {l words} (h : Gives l words)
      (none : classifyAll? front = none ∨ classifyAll? back = none) :
      read (front ++ (words ++ back)) = .misuse := by
    obtain ⟨block, -, parts⟩ := h.exists_block
    rw [read, classifyAll?_append around.separator, parts]
    rcases none with none | none <;> rw [none]
    · rfl
    · cases classifyAll? front <;> rfl
  cases front_parts : classifyAll? front with
  | none => exact ⟨.misuse, by simp, fun l words h _ => misread h (.inl front_parts)⟩
  | some as =>
    cases back_parts : classifyAll? back with
    | none => exact ⟨.misuse, by simp, fun l words h _ => misread h (.inr back_parts)⟩
    | some bs =>
      obtain ⟨p, values, reads⟩ := exists_reads_block
        (fun t => unnamed_of_not_namedIn front_parts (around.front t))
        (fun t => unnamed_of_not_namedIn back_parts (around.back t))
      refine ⟨p, values, fun l words h some => ?_⟩
      obtain ⟨block, hblock, parts⟩ := h.exists_block
      refine read_of_reads ?_ (reads l block hblock some)
      rw [classifyAll?_append around.separator, parts, front_parts, back_parts]
      rfl

end FieldProgram.CommandLine

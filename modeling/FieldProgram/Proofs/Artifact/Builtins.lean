import FieldProgram.Proofs.Artifact.FirstFault
import FieldProgram.Proofs.Document.OneLine
import FieldProgram.Proofs.Numeral.TextOrder

/-!
# Builtins that are no texts

The report on a broken layout has a line for each violation, sorted by the parts of their places as
texts. For the items of a list that is the order of their indices only while these have as many
digits; the field of the error is the place that comes first among texts.

* `OnlyBuiltinsBreak.violations`: one violation for each item that is no text;
* `reported_eq_iff`: when they are reported in the order of the list;
* `load_otherBuiltins`: the error of a document that breaks the layout in no other way.
-/

namespace FieldProgram

open Numeral

namespace Artifact

variable {room : Room} {d : Document}

/-- The items of a list that are no texts, with their indices. -/
def otherItems (v : Document) : List (Document × Nat) :=
  (v.items?.getD []).zipIdx.filter fun e => !SchemaType.string.admits (layer e.1)

/-- The items of the list of builtins that are no texts, with their indices. -/
def otherBuiltins (d : Document) : List (Document × Nat) := otherItems (part "builtins" d)

/-- How an item breaks the layout. -/
def builtinViolation (e : Document × Nat) : Violation Document :=
  ⟨["builtins", toString e.2], .wrongType e.1 [.string]⟩

/-- Nothing but items of the list of builtins breaks the layout, and something does. -/
structure OnlyBuiltinsBreak (d : Document) : Prop where
  some : violations d ≠ []
  items : ∀ x ∈ violations d, ∃ n : Nat, x.path = ["builtins", toString n]

theorem itemsOf_eq_items? (d : Document) : Schema.itemsOf d = d.items?.getD [] := by
  cases d <;> rfl

/-- The layout as the requirements on the object itself and on its members. -/
theorem layout_violations (d : Document) : layout.violations [] d =
    (Schema.typeBreaches [.object] d ++ Schema.requiredBreaches layout.required d).map (⟨[], ·⟩) ++
      layout.members.flatMap (Schema.violationsUnder [] d) := by
  have shape : layout = {
    types := [.object], required := layout.required, members := layout.members } := rfl
  rw [shape]
  simp [Schema.violations, Schema.memberViolations_eq_flatMap]

theorem OnlyBuiltinsBreak.under (h : OnlyBuiltinsBreak d) :
    layout.violations [] d = Schema.violationsUnder [] d
      ("builtins", { types := [.array], items := Option.some { types := [.string] } }) := by
  have items : ∀ x ∈ layout.violations [] d, ∃ n : Nat, x.path = ["builtins", toString n] :=
    fun x hx => h.items x ((List.mergeSort_perm _ _).mem_iff.mpr hx)
  rw [layout_violations] at items ⊢
  have own : Schema.typeBreaches [.object] d ++ Schema.requiredBreaches layout.required d = [] := by
    refine List.eq_nil_iff_forall_not_mem.mpr fun b hb => ?_
    obtain ⟨n, hn⟩ := items _ (List.mem_append_left _ (List.mem_map_of_mem hb))
    cases hn
  have others : ∀ e ∈ layout.members, e.1 ≠ "builtins" → Schema.violationsUnder [] d e = [] := by
    intro e he other
    refine List.eq_nil_iff_forall_not_mem.mpr fun x hx => ?_
    obtain ⟨n, hn⟩ := items x (List.mem_append_right _ (List.mem_flatMap.mpr ⟨e, he, hx⟩))
    have below := Schema.violationsUnder_below hx
    rw [hn, List.cons_prefix_cons] at below
    exact other below.1
  have split : layout.members = layout.members.take 5 ++
      ("builtins", { types := [.array], items := Option.some { types := [.string] } }) ::
        layout.members.drop 6 := rfl
  have before : (layout.members.take 5).flatMap (Schema.violationsUnder [] d) = [] :=
    List.flatMap_eq_nil_iff.mpr fun e he => others e (List.mem_of_mem_take he)
      ((by decide : ∀ e ∈ layout.members.take 5, e.1 ≠ "builtins") e he)
  have behind : (layout.members.drop 6).flatMap (Schema.violationsUnder [] d) = [] :=
    List.flatMap_eq_nil_iff.mpr fun e he => others e (List.mem_of_mem_drop he)
      ((by decide : ∀ e ∈ layout.members.drop 6, e.1 ≠ "builtins") e he)
  rw [own, split, List.flatMap_append, List.flatMap_cons, before, behind, List.append_nil,
    List.map_nil, List.nil_append, List.nil_append]

theorem OnlyBuiltinsBreak.violations (h : OnlyBuiltinsBreak d) :
    layout.violations [] d = (otherBuiltins d).map builtinViolation := by
  have items : ∀ x ∈ layout.violations [] d, ∃ n : Nat, x.path = ["builtins", toString n] :=
    fun x hx => h.items x ((List.mergeSort_perm _ _).mem_iff.mpr hx)
  have member : Schema.memberOf? "builtins" d = d.member? "builtins" := by
    cases d with
    | map ms => exact Document.member?_labelled _ _
    | _ => rfl
  rw [h.under] at items ⊢
  rw [Schema.violationsUnder, member] at items ⊢
  rw [otherBuiltins, part]
  cases found : d.member? "builtins" with
  | none => rfl
  | some v =>
    have shape : Schema.violations ["builtins"] v
        { types := [.array], items := Option.some { types := [.string] } } =
          (Schema.typeBreaches [.array] v).map (⟨["builtins"], ·⟩) ++
            (otherItems v).map builtinViolation := by
      rw [Schema.violations, Schema.typedItems_violations, itemsOf_eq_items?]
      simp
      rfl
    have listed : Schema.typeBreaches [.array] v = [] := by
      refine List.eq_nil_iff_forall_not_mem.mpr fun b hb => ?_
      rw [found] at items
      have mem := List.mem_append_left ((otherItems v).map builtinViolation)
        (List.mem_map_of_mem (f := fun b => (⟨["builtins"], b⟩ : Violation Document)) hb)
      obtain ⟨n, hn⟩ := items _ (shape ▸ mem)
      cases hn
    exact shape.trans (by rw [listed]; rfl)

/-! ## The report -/

/-- Whether an item comes before another, by their indices as texts. -/
def textLe (a b : Document × Nat) : Bool := decide (toString a.2 ≤ toString b.2)

theorem textLe_iff {a b : Document × Nat} :
    textLe a b = true ↔ toString a.2 ≤ toString b.2 := decide_eq_true_iff

/-- The items in the order of the report. -/
def reported (d : Document) : List (Document × Nat) := (otherBuiltins d).mergeSort textLe

/-- The indices come in the same order as texts. -/
def InTextOrder (es : List (Document × Nat)) : Prop :=
  es.Pairwise fun a b => toString a.2 < toString b.2

theorem OnlyBuiltinsBreak.inOrder (h : OnlyBuiltinsBreak d) :
    Artifact.violations d = (reported d).map builtinViolation := by
  rw [Artifact.violations, h.violations, Schema.inOrder, reported]
  refine (List.map_mergeSort fun a _ b _ => ?_).symm
  rw [Bool.eq_iff_iff, textLe_iff]
  simp [builtinViolation, Schema.pathLe, le_iff_lt_or_eq]

theorem reported_perm (d : Document) : (reported d).Perm (otherBuiltins d) :=
  List.mergeSort_perm _ _

theorem otherBuiltins_increasing (d : Document) :
    (otherBuiltins d).Pairwise fun a b => a.2 < b.2 := by
  have indices : ((part "builtins" d).items?.getD []).zipIdx.Pairwise fun a b => a.2 < b.2 := by
    rw [← List.pairwise_map (f := Prod.snd) (R := fun a b => a < b), List.zipIdx_map_snd]
    exact List.pairwise_lt_range' 1
  exact indices.filter _

theorem reported_sorted (d : Document) : InTextOrder (reported d) := by
  have sorted : (reported d).Pairwise fun a b => textLe a b = true := by
    refine List.pairwise_mergeSort (fun a b c le le' => ?_) (fun a b => ?_) (otherBuiltins d)
    · exact textLe_iff.mpr ((textLe_iff.mp le).trans (textLe_iff.mp le'))
    · simpa [textLe] using le_total (toString a.2) (toString b.2)
  have apart : (reported d).Pairwise fun a b => a.2 ≠ b.2 :=
    ((reported_perm d).pairwise_iff Ne.symm).mpr ((otherBuiltins_increasing d).imp Nat.ne_of_lt)
  exact (sorted.and apart).imp fun ⟨le, other⟩ =>
    lt_of_le_of_ne (textLe_iff.mp le) (toString_ne other)

/-- No other order is sorted. -/
theorem reported_eq_of_perm {es : List (Document × Nat)} (perm : es.Perm (otherBuiltins d))
    (sorted : InTextOrder es) : reported d = es :=
  ((reported_perm d).trans perm.symm).eq_of_pairwise
    (fun _ _ _ _ below below' => absurd (below.trans below') (lt_irrefl _))
    (reported_sorted d) sorted

theorem reported_eq_iff : reported d = otherBuiltins d ↔ InTextOrder (otherBuiltins d) := by
  constructor
  · intro same
    rw [← same]
    exact reported_sorted d
  · exact reported_eq_of_perm (.refl _)

/-- That is so if all indices have as many digits. -/
theorem inTextOrder_of_width
    (width : ∀ a ∈ otherBuiltins d, ∀ b ∈ otherBuiltins d,
      (toString a.2).length = (toString b.2).length) : InTextOrder (otherBuiltins d) := by
  refine (otherBuiltins_increasing d).imp_of_mem fun ha hb below => ?_
  exact toString_lt below (width _ ha _ hb)

/-- The name of an item in errors. -/
def builtinField (e : Document × Nat) : String := "builtins." ++ toString e.2

/-- The display of an item in a report that is made in the given room. -/
def builtinShown (room : Room) (e : Document × Nat) : Except Limit String :=
  e.1.shown (room.shown ["builtins", toString e.2])

/-- The line of the report about an item. -/
def IsLineOf (room : Room) (e : Document × Nat) (line : String) : Prop :=
  ∃ s, builtinShown room e = .ok s ∧
    line = " - " ++ builtinField e ++ ": " ++ (s ++ " is not of type " ++ "'string'")

theorem place?_builtinViolation (e : Document × Nat) :
    (builtinViolation e).place? = some (builtinField e) := by
  have joined : ".".intercalate ["builtins", toString e.2] = builtinField e := by
    rw [String.intercalate_cons_cons, String.intercalate_singleton, builtinField]
    rfl
  have full : builtinField e ≠ "" := by
    intro empty
    have := congrArg String.length empty
    simp [builtinField] at this
  rw [Violation.place?, builtinViolation, joined, if_neg full]

theorem line_eq_ok_iff {e : Document × Nat} {line : String} :
    (builtinViolation e).line room = .ok line ↔ IsLineOf room e line := by
  have words : ", ".intercalate ([SchemaType.string].map fun t => Text.quoted t.word) =
    "'string'" := by decide
  have shown : Layered.shown (room.shown (builtinViolation e).path) e.1 = builtinShown room e := rfl
  rw [Violation.line, place?_builtinViolation]
  simp only [builtinViolation, Breach.message, words] at shown ⊢
  simp only [shown, Except.bind_eq_ok]
  constructor
  · rintro ⟨m, ⟨s, hs, ⟨⟩⟩, ⟨⟩⟩
    exact ⟨s, hs, rfl⟩
  · rintro ⟨s, hs, rfl⟩
    exact ⟨_, ⟨s, hs, rfl⟩, rfl⟩

theorem IsLineOf.oneLine {e : Document × Nat} {line : String} (h : IsLineOf room e line) :
    OneLine line.toList := by
  obtain ⟨s, hs, rfl⟩ := h
  have index : OneLine (Nat.toDigits 10 e.2) := fun mem =>
    absurd (Nat.isDigit_of_mem_toDigits (by decide) (by decide) mem) (by decide)
  simp [builtinField, e.1.shown_oneLine _ s hs, index]

/-- The title of the report. -/
def reportTitle : String := "Artifact validation failed:"

theorem report_eq_ok_iff {es : List (Document × Nat)} {report : String} :
    Violation.report room reportTitle (es.map builtinViolation) = .ok report ↔
      ∃ lines, List.Forall₂ (IsLineOf room) es lines ∧
        report = "\n".intercalate (reportTitle :: lines) := by
  simp only [Violation.report, Except.bind_eq_ok, Except.mapM_eq_ok_iff, List.forall₂_map_left_iff,
    line_eq_ok_iff]
  constructor
  · rintro ⟨lines, all, ⟨⟩⟩
    exact ⟨lines, all, rfl⟩
  · rintro ⟨lines, all, rfl⟩
    exact ⟨lines, all, rfl⟩

theorem exists_lines_iff {es : List (Document × Nat)} :
    (∃ lines, List.Forall₂ (IsLineOf room) es lines) ↔
      ∀ e ∈ es, ∃ s, builtinShown room e = .ok s := by
  rw [exists_forall₂_iff]
  exact forall₂_congr fun e _ => ⟨fun ⟨_, s, hs, _⟩ => ⟨s, hs⟩, fun ⟨s, hs⟩ => ⟨_, s, hs, rfl⟩⟩

theorem message_layout (room : Room) (first : Document × Nat) (rest : List (Document × Nat)) :
    (LoadError.layout room (builtinViolation first) (rest.map builtinViolation)).message =
      (Violation.report room reportTitle ((first :: rest).map builtinViolation)).map
        fun report => (builtinField first : Text) ++ ": " ++ (report : Text) := by
  have field :
      (LoadError.layout room (builtinViolation first) (rest.map builtinViolation)).field =
      .ok (some (builtinField first)) := by
    rw [LoadError.field, place?_builtinViolation]
    rfl
  rw [LoadError.message, field, LoadError.detail]
  show Except.map Text.ofString (Violation.report room reportTitle _) >>= _ = _
  rw [← List.map_cons]
  cases Violation.report room reportTitle ((first :: rest).map builtinViolation) <;> rfl

/-- Items that are no texts, if nothing else breaks the layout, have a line each in the message,
sorted by their indices as texts, and the first of them gives the field. Lines come in the order
of the list just where the indices are in the same order as texts, which they are if all have as
many digits. -/
theorem load_otherBuiltins (room : Room) (h : OnlyBuiltinsBreak d) (entrypoint : Text)
    (expected : Option Int) :
    (reported d).Perm (otherBuiltins d) ∧ InTextOrder (reported d) ∧
      (reported d = otherBuiltins d ↔ InTextOrder (otherBuiltins d)) ∧
      ((∀ a ∈ otherBuiltins d, ∀ b ∈ otherBuiltins d,
        (toString a.2).length = (toString b.2).length) → InTextOrder (otherBuiltins d)) ∧
      ∃ first rest, reported d = first :: rest ∧
        ((∀ e ∈ otherBuiltins d, ∃ s, builtinShown room.inner e = .ok s) →
          ∃ e lines, (load room d entrypoint expected).outcome = .error (.rejected e) ∧
            e.area = .malformed ∧ e.field = .ok (some (builtinField first)) ∧
            List.Forall₂ (IsLineOf room.inner) (reported d) lines ∧
            (∀ l ∈ lines, OneLine l.toList) ∧
            e.message =
              .ok (builtinField first ++ ": " ++ "\n".intercalate (reportTitle :: lines))) ∧
        ((∃ e ∈ otherBuiltins d, ∀ s, builtinShown room.inner e ≠ .ok s) →
          ∃ l, (load room d entrypoint expected).outcome = .error (.limit l)) := by
  refine ⟨reported_perm d, reported_sorted d, reported_eq_iff, inTextOrder_of_width, ?_⟩
  have violations := h.inOrder
  cases same : reported d with
  | nil => exact absurd (by rw [violations, same]; rfl) h.some
  | cons first rest =>
    rw [same, List.map_cons] at violations
    refine ⟨first, rest, rfl, ?_⟩
    have layout : checkLayout room.inner d =
        (LoadError.layout room.inner (builtinViolation first)
          (rest.map builtinViolation)).fail := by
      rw [checkLayout, violations]
    have shown_iff : (∀ e ∈ otherBuiltins d, ∃ s, builtinShown room.inner e = .ok s) ↔
        ∃ lines, List.Forall₂ (IsLineOf room.inner) (first :: rest) lines := by
      rw [exists_lines_iff, ← same]
      exact forall_congr' fun e => imp_congr_left (reported_perm d).mem_iff.symm
    have message := message_layout room.inner first rest
    refine ⟨fun shown => ?_, fun hidden => ?_⟩
    · obtain ⟨lines, all⟩ := shown_iff.mp shown
      rw [report_eq_ok_iff.mpr ⟨lines, all, rfl⟩] at message
      refine ⟨_, lines, outcome_load_of_refused (layout.trans (LoadError.fail_eq ⟨_, message⟩)) _ _,
        rfl, ?_, all, ?_, message⟩
      · rw [LoadError.field, place?_builtinViolation]
        rfl
      · intro l hl
        obtain ⟨e, -, line⟩ := exists_left_of_forall₂ all l hl
        exact line.oneLine
    · have none : ∀ report, Violation.report room.inner reportTitle
          ((first :: rest).map builtinViolation) ≠ .ok report := by
        intro report done
        obtain ⟨lines, all, -⟩ := report_eq_ok_iff.mp done
        obtain ⟨e, he, hidden⟩ := hidden
        obtain ⟨s, hs⟩ := shown_iff.mpr ⟨lines, all⟩ e he
        exact hidden s hs
      cases report : Violation.report room.inner reportTitle
          ((first :: rest).map builtinViolation) with
      | ok report' => exact absurd report (none report')
      | error l =>
        rw [report] at message
        refine ⟨l, outcome_load_of_refused (layout.trans ?_) _ _⟩
        rw [LoadError.fail, message]
        rfl

/-- An artifact of nothing but builtins. -/
def builtinDocument (builtins : List Document) : Document := .map [
  ("builtins", .list builtins),
  ("prime", .str "0x7"),
  ("data", .list []),
  ("identifiers", .map []),
  ("reference_manager", .map [("references", .list [])])]

theorem onlyBuiltinsBreak_of_paths {paths : List (List String)} (some : paths ≠ [])
    (same : (layout.violations [] d).map Violation.path = paths)
    (items : ∀ p ∈ paths, ∃ n : Nat, p = ["builtins", toString n]) : OnlyBuiltinsBreak d := by
  subst same
  refine ⟨fun none => some ?_, fun x hx => ?_⟩
  · rw [Schema.inOrder_eq_nil_iff.mp none]
    rfl
  · exact items _ (List.mem_map_of_mem ((List.mergeSort_perm _ _).mem_iff.mp hx))

/-- The first and the last of three builtins are no texts. -/
theorem load_outerBuiltins :
    OnlyBuiltinsBreak (builtinDocument [.null, .str "output", .bool true]) ∧
      ∃ e, (load .standard (builtinDocument [.null, .str "output", .bool true]) "main"
        none).outcome = .error (.rejected e) ∧ e.field = .ok (some "builtins.0") := by
  have paths : (layout.violations [] (builtinDocument [.null, .str "output", .bool true])).map
      Violation.path = [["builtins", "0"], ["builtins", "2"]] := by rfl
  have only : OnlyBuiltinsBreak (builtinDocument [.null, .str "output", .bool true]) :=
    onlyBuiltinsBreak_of_paths (by simp) paths (by simp; exact ⟨⟨0, by decide⟩, ⟨2, by decide⟩⟩)
  have others : otherBuiltins (builtinDocument [.null, .str "output", .bool true]) =
    [(.null, 0), (.bool true, 2)] := by rfl
  have reported : reported (builtinDocument [.null, .str "output", .bool true]) =
      [(.null, 0), (.bool true, 2)] :=
    reported_eq_of_perm (others ▸ .refl _) <| by
      rw [InTextOrder, List.pairwise_pair, String.lt_iff_toList_lt]
      decide
  obtain ⟨-, -, -, -, first, rest, same, shown, -⟩ :=
    load_otherBuiltins .standard only "main" none
  obtain ⟨rfl, rfl⟩ := List.cons.inj (reported.symm.trans same)
  obtain ⟨e, -, refused, -, field, -⟩ := shown (by
    rw [others]
    simp [builtinShown, Document.shown])
  exact ⟨only, e, refused, field⟩

/-- Among eleven builtins the third and the last are no texts. The last one comes first. -/
def elevenBuiltins : Document :=
  builtinDocument [.str "a", .str "b", .int 1, .str "c", .str "d", .str "e", .str "f", .str "g",
    .str "h", .str "i", .int 1]

theorem load_elevenBuiltins :
    OnlyBuiltinsBreak elevenBuiltins ∧ (otherBuiltins elevenBuiltins).map Prod.snd = [2, 10] ∧
      ∃ e, (load .standard elevenBuiltins "main" none).outcome = .error (.rejected e) ∧
        e.field = .ok (some "builtins.10") ∧
        e.message = .ok ("builtins.10: Artifact validation failed:\n" ++
          " - builtins.10: 1 is not of type 'string'\n" ++
          " - builtins.2: 1 is not of type 'string'") := by
  have paths : (layout.violations [] elevenBuiltins).map Violation.path =
    [["builtins", "2"], ["builtins", "10"]] := by rfl
  have only : OnlyBuiltinsBreak elevenBuiltins :=
    onlyBuiltinsBreak_of_paths (by simp) paths (by simp; exact ⟨⟨2, by decide⟩, ⟨10, by decide⟩⟩)
  have others : otherBuiltins elevenBuiltins = [(.int 1, 2), (.int 1, 10)] := by rfl
  have reported : reported elevenBuiltins = [(.int 1, 10), (.int 1, 2)] :=
    reported_eq_of_perm (others ▸ .swap ..) <| by
      rw [InTextOrder, List.pairwise_pair, String.lt_iff_toList_lt]
      decide
  have violations := only.inOrder
  rw [reported] at violations
  have message : (LoadError.layout Room.standard.inner (builtinViolation (.int 1, 10))
      [builtinViolation (.int 1, 2)]).message =
        .ok ("builtins.10: Artifact validation failed:\n" ++
          " - builtins.10: 1 is not of type 'string'\n" ++
          " - builtins.2: 1 is not of type 'string'") := by
    decide +kernel
  have refused : checkLayout Room.standard.inner elevenBuiltins = .error (.rejected
      (.layout Room.standard.inner (builtinViolation (.int 1, 10))
        [builtinViolation (.int 1, 2)])) := by
    rw [checkLayout, violations]
    exact LoadError.fail_eq ⟨_, message⟩
  exact ⟨only, by rw [others]; rfl, _, outcome_load_of_refused refused _ _, by decide +kernel,
    message⟩

end Artifact

end FieldProgram

import FieldProgram.CommandLine.Run
import FieldProgram.Proofs.Json.Ascii

/-!
# What an output can show

A run crashes at the first code point of its text that the output has no place for. Every output has
a place for ASCII, and a document is written in ASCII. A summary shows the names of builtins and of
constants as they are, and nothing else in it comes from the artifact as a text.

* `printStep_of_takes`, `printStep_of_not_takes`: a text that is printed, or the code point that
  crashes the run;
* `takes_summary_iff`, `takes_written`: which programs an output can show.
-/

namespace FieldProgram.CommandLine

open Log Numeral Text

/-- The output can show every code point of the text. -/
def Host.Takes (host : Host) (t : Text) : Prop := ∀ c ∈ t.codes, host.takes c = true

variable {host : Host} {t u : Text}

/-! ## Printing -/

theorem printStep_of_takes (taken : host.Takes t) : printStep host t = pure t := by
  have none : (t.codes.find? fun c => !host.takes c) = none :=
    List.find?_eq_none.mpr fun c mem => by simp [taken c mem]
  rw [printStep, none]

theorem printStep_of_not_takes (refused : ¬host.Takes t) :
    ∃ c ∈ t.codes, host.takes c = false ∧ printStep host t = stop (.crash (.unencodable c)) := by
  cases found : t.codes.find? fun c => !host.takes c with
  | none =>
    refine absurd (fun c mem => ?_) refused
    simpa using List.find?_eq_none.mp found c mem
  | some c =>
    refine ⟨c, List.mem_of_find?_eq_some found, by simpa using List.find?_some found, ?_⟩
    rw [printStep, found]

theorem printStep_eq_ok_iff : (printStep host t).outcome = .ok u ↔ host.Takes t ∧ t = u := by
  by_cases taken : host.Takes t
  · rw [printStep_of_takes taken]
    simp [taken, pure, Run.ofExcept]
  · obtain ⟨c, -, -, stopped⟩ := printStep_of_not_takes taken
    rw [stopped]
    simp [taken, stop, Run.ofExcept]

/-! ## Texts that can be shown -/

theorem takes_append : host.Takes (t ++ u) ↔ host.Takes t ∧ host.Takes u :=
  List.forall_mem_append

theorem takes_ofString {s : String} (ascii : AllAscii s.toList) : host.Takes s := by
  intro c mem
  obtain ⟨ch, hch, rfl⟩ := List.mem_map.mp mem
  exact host.takes_ascii ch (ascii ch hch).2

/-- Parts with a separator between them can be shown if each of them can. -/
theorem takes_intercalate_iff {ts : List Text} (separated : host.Takes u) :
    host.Takes (Text.intercalate u ts) ↔ ∀ t ∈ ts, host.Takes t := by
  induction ts with
  | nil => simp [Host.Takes, Text.intercalate]
  | cons t ts ih =>
    rw [List.forall_mem_cons, ← ih]
    cases ts with
    | nil => simp [Host.Takes, Text.intercalate]
    | cons t' ts =>
      have parts : Text.intercalate u (t :: t' :: ts) =
          t ++ (u ++ Text.intercalate u (t' :: ts)) := by
        simp only [Text.intercalate, List.map_cons]
        rw [List.intercalate_cons_of_ne_nil (List.cons_ne_nil _ _), List.append_assoc]
        rfl
      rw [parts, takes_append, takes_append, and_iff_right separated]

theorem allAscii_hexText (n : Int) : AllAscii (hexText n).toList := by
  rw [hexText, String.toList_ofList, allAscii_append]
  refine ⟨by split <;> decide, ?_⟩
  simp only [allAscii_cons]
  exact ⟨by decide, by decide, allAscii_digits (digits_lt (by decide) _)⟩

theorem allAscii_toString (n : Nat) : AllAscii (toString n).toList := by
  intro c mem
  have mem : c ∈ Nat.toDigits 10 n := by simpa using mem
  have digit := Nat.isDigit_of_mem_toDigits (by decide) (by decide) mem
  simp only [Char.isDigit, Bool.and_eq_true, decide_eq_true_eq, UInt32.le_iff_toNat_le] at digit
  exact ⟨Nat.lt_of_lt_of_le (by decide) digit.1, Nat.lt_of_le_of_lt digit.2 (by decide)⟩

theorem takes_decimalText {n : Int} {s : String} (text : decimalText n = .ok s) : host.Takes s := by
  obtain ⟨-, rfl⟩ := decimalText_eq_ok_iff.mp text
  exact takes_ofString (allAscii_shortDecimal n)

/-! ## Programs -/

theorem takes_commas_iff {ts : List Text} :
    host.Takes (commas ts) ↔ ∀ t ∈ ts, host.Takes t := by
  have separated : host.Takes (", " : String) := takes_ofString (by decide)
  rw [← takes_intercalate_iff separated, commas]
  split
  · rename_i empty
    have dash : host.Takes ("-" : String) := takes_ofString (by decide)
    refine iff_of_true dash ?_
    intro c mem
    rw [List.isEmpty_iff.mp empty] at mem
    cases mem
  · rfl

/-- The output can show the names of the builtins and of the constants. -/
def Host.TakesNames (host : Host) (p : Program) : Prop :=
  (∀ t ∈ p.builtins, host.Takes t) ∧ ∀ c ∈ p.constants, host.Takes c.1

variable {p : Program} {entrypoint : Text}

theorem takes_mainText (entered : host.Takes entrypoint) {t : Text}
    (main : mainText p entrypoint = .ok t) : host.Takes t := by
  unfold mainText at main
  split at main
  · obtain ⟨s, hs, rfl⟩ := Except.map_eq_ok.mp main
    exact takes_decimalText hs
  · obtain rfl := Except.ok.inj main
    have before : host.Takes ("<none> ('" : String) := takes_ofString (by decide)
    have behind : host.Takes ("' not resolved)" : String) := takes_ofString (by decide)
    exact takes_append.mpr ⟨takes_append.mpr ⟨before, entered⟩, behind⟩

theorem takes_constantLine_iff {c : Text × Felt} (line : constantLine c = .ok t) :
    host.Takes t ↔ host.Takes c.1 := by
  obtain ⟨s, hs, same⟩ := Except.bind_eq_ok.mp line
  obtain rfl := Except.ok.inj same
  have before : host.Takes ("  const " : String) := takes_ofString (by decide)
  have equals : host.Takes (" = " : String) := takes_ofString (by decide)
  have value : host.Takes s := takes_decimalText hs
  rw [takes_append, takes_append, takes_append]
  simp [before, equals, value]

theorem takes_summary_iff (entered : host.Takes entrypoint) {lines : List Text}
    (h : summary p entrypoint = .ok lines) :
    host.Takes (Text.intercalate "\n" lines ++ "\n") ↔ host.TakesNames p := by
  have feed : host.Takes ("\n" : String) := takes_ofString (by decide)
  rw [takes_append, and_iff_left feed, takes_intercalate_iff feed]
  obtain ⟨main, hmain, h⟩ := Except.bind_eq_ok.mp h
  obtain ⟨pcs, hpcs, h⟩ := Except.bind_eq_ok.mp h
  obtain ⟨constants, hconstants, h⟩ := Except.bind_eq_ok.mp h
  obtain rfl := Except.ok.inj h
  have shown := takes_mainText entered hmain
  have counters : ∀ t ∈ pcs, host.Takes t := by
    intro t mem
    obtain ⟨pc, -, hpc⟩ := exists_left_of_forall₂ (Except.mapM_eq_ok_iff.mp hpcs) t mem
    obtain ⟨s, hs, rfl⟩ := Except.map_eq_ok.mp hpc
    exact takes_decimalText hs
  have named : (∀ t ∈ constants, host.Takes t) ↔ ∀ c ∈ p.constants, host.Takes c.1 := by
    have lines := Except.mapM_eq_ok_iff.mp hconstants
    constructor
    · intro taken c mem
      obtain ⟨t, there, line⟩ := exists_right_of_forall₂ lines c (List.mem_mergeSort.mpr mem)
      exact (takes_constantLine_iff line).mp (taken t there)
    · intro taken t there
      obtain ⟨c, mem, line⟩ := exists_left_of_forall₂ lines t there
      exact (takes_constantLine_iff line).mpr (taken c (List.mem_mergeSort.mp mem))
  rw [List.forall_mem_append, named]
  have number (n : Nat) : host.Takes (toString n : String) := takes_ofString (allAscii_toString n)
  have prime : host.Takes (hexText p.prime) := takes_ofString (allAscii_hexText _)
  simp (disch := decide) only [List.forall_mem_cons, takes_append, takes_commas_iff,
    takes_ofString, number, prime, shown, true_and]
  constructor
  · rintro ⟨⟨builtins, -⟩, constants⟩
    exact ⟨builtins, constants⟩
  · rintro ⟨builtins, constants⟩
    exact ⟨⟨builtins, counters, by simp⟩, constants⟩

/-- A document that is written can be shown by every output. -/
theorem takes_written {d : Document} {levels : Nat} {s : String} {l : Json.Layout}
    (fits : d.FitsIn levels) (h : Json.write l d = .ok s) : host.Takes (s ++ ("\n" : Text)) := by
  obtain ⟨cs, hcs, h⟩ := Except.bind_eq_ok.mp h
  obtain rfl := Except.ok.inj h
  have ascii : AllAscii (String.ofList cs).toList := by
    rw [String.toList_ofList]
    exact Json.allAscii_written l d fits hcs
  exact takes_append.mpr ⟨takes_ofString ascii, takes_ofString (by decide)⟩

end FieldProgram.CommandLine

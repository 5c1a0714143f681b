import FieldProgram.Program.Basic

/-!
# The summary of a program

A few lines on what a program holds: its prime, builtins, counts, entry point and constants. Lists
that are empty show as a dash.
-/

namespace FieldProgram.CommandLine

open Numeral

/-- A list with commas, or a dash. A list whose text is empty counts as empty. -/
def commas (items : List Text) : Text :=
  let t := Text.intercalate ", " items
  if t.isEmpty then "-" else t

/-- The entry point: its program counter, or that there is none. -/
def mainText (p : Program) (entrypoint : Text) : Except Limit Text :=
  match p.main with
  | some pc => (decimalText pc).map Text.ofString
  | none => .ok ("<none> ('" ++ entrypoint ++ "' not resolved)")

/-- The program counters of hints in ascending order. -/
def hintPcs (p : Program) : List Int := (p.hints.map Prod.fst).mergeSort fun a b => a ≤ b

/-- The constants in the order of their names. -/
def sortedConstants (p : Program) : List (Text × Felt) :=
  p.constants.mergeSort fun a b => a.1.le b.1

/-- The line of a constant. -/
def constantLine : Text × Felt → Except Limit Text
  | (name, f) => do return "  const " ++ name ++ " = " ++ (← f.text)

/-- The lines of a summary. -/
def summary (p : Program) (entrypoint : Text) : Except Limit (List Text) := do
  let main ← mainText p entrypoint
  let pcs ← (hintPcs p).mapM fun pc => (decimalText pc).map Text.ofString
  let constants ← (sortedConstants p).mapM constantLine
  let lines : List Text := [
    "prime:       " ++ hexText p.prime,
    "builtins:    " ++ commas p.builtins,
    "data:        " ++ toString p.dataLength ++ " word(s)",
    "main:        " ++ main,
    "identifiers: " ++ toString p.identifiers.length,
    "hints:       " ++ commas pcs,
    "references:  " ++ toString p.references.size]
  return lines ++ constants

end FieldProgram.CommandLine

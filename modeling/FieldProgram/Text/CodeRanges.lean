/-!
# Sets of characters as ranges of code points

The classes of characters beyond ASCII are data: lists of inclusive ranges. `CodeRanges.has_iff`
says what a list stands for.
-/

namespace FieldProgram.Text

/-- A set of code points as a list of inclusive ranges. -/
abbrev CodeRanges := List (Nat × Nat)

namespace CodeRanges

/-- Whether some range of the list holds the code point. -/
def has (table : CodeRanges) (n : Nat) : Bool := table.any fun r => r.1 ≤ n && n ≤ r.2

theorem has_iff {table : CodeRanges} {n : Nat} :
    table.has n = true ↔ ∃ r ∈ table, r.1 ≤ n ∧ n ≤ r.2 := by
  simp [has, List.any_eq_true]

end CodeRanges

end FieldProgram.Text

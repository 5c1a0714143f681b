import FieldProgram.Text.Basic

/-!
# Positions in a text

A position is a count of code points from the start, shown with its line and column. Lines end at
line feeds; lines and columns count from one.
-/

namespace FieldProgram.Text

/-- The line of a position: one more than the line feeds before it. -/
def lineAt (text : List Code) (offset : Nat) : Nat := (text.take offset).count (.char '\n') + 1

/-- The column of a position: one more than the code points since the last line feed before it. -/
def columnAt (text : List Code) (offset : Nat) : Nat :=
  ((text.take offset).reverse.takeWhile (· ≠ .char '\n')).length + 1

end FieldProgram.Text

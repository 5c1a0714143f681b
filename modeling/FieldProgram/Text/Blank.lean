import FieldProgram.Text.CodeRanges

/-!
# Blank characters

Blanks are the characters that separate words: the ASCII controls for tabs, lines and records, the
space, and the spaces and line separators of other scripts. `trim` takes them off both ends.
-/

namespace FieldProgram.Text

def blankRanges : CodeRanges :=
  [(0x09, 0x0d), (0x1c, 0x20), (0x85, 0x85), (0xa0, 0xa0), (0x1680, 0x1680), (0x2000, 0x200a),
   (0x2028, 0x2029), (0x202f, 0x202f), (0x205f, 0x205f), (0x3000, 0x3000)]

def isBlank (c : Char) : Bool := blankRanges.has c.toNat

/-- The text without its blanks in front. -/
def trimStart (cs : List Char) : List Char := cs.dropWhile isBlank

/-- The text without its blanks at the end. -/
def trimEnd (cs : List Char) : List Char := (cs.reverse.dropWhile isBlank).reverse

/-- The text without its blanks at both ends. -/
def trim (cs : List Char) : List Char := trimEnd (trimStart cs)

end FieldProgram.Text

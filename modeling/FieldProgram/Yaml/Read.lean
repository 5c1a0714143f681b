import FieldProgram.Yaml.Lexer
import FieldProgram.Yaml.Node.OfTokens
import FieldProgram.Yaml.Value.OfNodes

/-!
# Reading YAML

The value of a text that holds one document or none.
-/

namespace FieldProgram.Yaml

/-- Line breaks of all conventions as line feeds. -/
def plainBreaksOf : List Char → List Char
  | [] => []
  | '\r' :: '\n' :: cs => '\n' :: plainBreaksOf cs
  | '\r' :: cs => '\n' :: plainBreaksOf cs
  | c :: cs => c :: plainBreaksOf cs

/-- The value of a text, read in the given room, null where it holds no document. -/
def read (room : Room) (text : List Char) : Result Value := do
  match ← nodesOfTokens room.collections (← tokens text) with
  | none => return .ofAtom .null
  | some (root, g) => g.value room root

end FieldProgram.Yaml

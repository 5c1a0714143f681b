import FieldProgram.Binary64.Basic
import FieldProgram.Text.Basic

/-!
# Documents

A document is null, a truth value, a number or a text, or it is a list of documents, or a mapping
of texts to documents in a fixed order.
-/

namespace FieldProgram

inductive Document
  | null
  | bool (b : Bool)
  | int (n : Int)
  | float (x : Binary64)
  | str (t : Text)
  | list (items : List Document)
  | map (members : List (Text × Document))
  deriving Inhabited

namespace Document

/-- The members of a mapping. -/
def members? : Document → Option (List (Text × Document))
  | .map ms => some ms
  | _ => none

/-- The items of a list. -/
def items? : Document → Option (List Document)
  | .list xs => some xs
  | _ => none

/-- The member of a mapping under a name. -/
def member? (name : Text) (d : Document) : Option Document := d.members?.bind (·.lookup name)

end Document

end FieldProgram

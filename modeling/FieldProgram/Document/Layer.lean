import FieldProgram.Document.Display

/-!
# Values layer by layer

Schemas and records look at a value one layer at a time: what it is, and what its parts are. So a
value need not be a finite tree, and one may be part of itself. `Layered` says what a value has to
offer; documents offer it, and `member?_labelled` says that their members are found by name.
-/

namespace FieldProgram

open Numeral

/-- The key of a member: a text, or a value of another kind, of which the display and the plain text
are known. -/
inductive Label
  | text (t : Text)
  | other (shown plain : Except Limit String)

namespace Label

/-- Whether the key is the given text. -/
def isNamed (name : Text) : Label → Bool
  | text t => t == name
  | other .. => false

def shown : Label → Except Limit String
  | text t => .ok t.quoted
  | other shown _ => shown

def plain : Label → Except Limit Text
  | text t => .ok t
  | other _ plain => plain.map Text.ofString

end Label

/-- The outermost layer of a value whose parts are in `ν`. -/
inductive Layer (ν : Type)
  | null
  | bool (b : Bool)
  | int (n : Int)
  | float (x : Binary64)
  | str (t : Text)
  | list (items : List ν)
  | map (members : List (Label × ν))
  /-- A value that no schema asks for, such as a date. -/
  | other

/-- Values that can be looked at layer by layer and displayed. -/
class Layered (ν : Type) where
  layer : ν → Layer ν
  /-- The display, which may go into the given levels of parts. -/
  shown : (levels : Nat) → ν → Except Limit String

export Layered (layer)

namespace Layer

variable {ν : Type}

/-- The member under a name. -/
def member? (name : Text) (ms : List (Label × ν)) : Option ν :=
  (ms.find? fun m => m.1.isNamed name).map Prod.snd

end Layer

/-! ## Kinds -/

/-- The kind of a value. -/
inductive Kind
  | null
  | bool
  | int
  | float
  | str
  | list
  | map
  | other
  deriving DecidableEq, Repr

/-- The word that messages use for a kind. -/
def Kind.word : Kind → String
  | .null => "NoneType"
  | .bool => "bool"
  | .int => "int"
  | .float => "float"
  | .str => "str"
  | .list => "list"
  | .map => "dict"
  | .other => "object"

def Layer.kind {ν : Type} : Layer ν → Kind
  | .null => .null
  | .bool _ => .bool
  | .int _ => .int
  | .float _ => .float
  | .str _ => .str
  | .list _ => .list
  | .map _ => .map
  | .other => .other

/-! ## Documents -/

namespace Document

/-- Members with their keys as labels. -/
def labelled (ms : List (Text × Document)) : List (Label × Document) :=
  ms.map fun (k, v) => (.text k, v)

/-- The outermost layer of a document. -/
def outer : Document → Layer Document
  | .null => .null
  | .bool b => .bool b
  | .int n => .int n
  | .float x => .float x
  | .str t => .str t
  | .list items => .list items
  | .map members => .map (labelled members)

instance : Layered Document where
  layer := outer
  shown := shown

def kind (d : Document) : Kind := d.outer.kind

theorem member?_labelled (name : Text) (ms : List (Text × Document)) :
    Layer.member? name (labelled ms) = ms.lookup name := by
  induction ms with
  | nil => rfl
  | cons m ms ih =>
    obtain ⟨k, v⟩ := m
    simp only [Layer.member?, labelled, List.map_cons, List.find?_cons, Label.isNamed,
      List.lookup_cons] at ih ⊢
    rw [show (name == k) = (k == name) from BEq.comm]
    split <;> simp_all

end Document

end FieldProgram

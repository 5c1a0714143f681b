import FieldProgram.Yaml.Node.Basic
import FieldProgram.Yaml.Value.KeyOrder

/-!
# Values of YAML

A value is an atom or a collection. Collections are known by the node that they are made from and
kept beside the value, because a collection may be part of itself. Where a display would come to a
collection that it is already inside, it shows dots instead.
-/

namespace FieldProgram.Yaml

open Numeral

/-- A value as part of another: an atom, or the collection of a node. -/
inductive Part
  | atom (a : Atom)
  | collection (id : NodeId)
  deriving DecidableEq, Repr, Inhabited

inductive Collection
  | list (items : List Part)
  | map (members : List (Atom × Part))
  | set (keys : List Atom)
  /-- A list of pairs. -/
  | pairs (entries : List (Part × Part))
  deriving DecidableEq, Repr, Inhabited

/-- Collections by node. -/
abbrev Collections := Array Collection

/-- A value with the collections that are part of it. -/
structure Value where
  collections : Collections
  root : Part
  deriving Repr, Inhabited

/-! ## Vacancy -/

/-- Whether a collection has no parts. -/
def Collection.isVacant : Collection → Bool
  | .list items => items.isEmpty
  | .map members => members.isEmpty
  | .set keys => keys.isEmpty
  | .pairs entries => entries.isEmpty

/-- The collection of a node. -/
def collectionOf (cs : Collections) (id : NodeId) : Collection := cs[id]?.getD (.list [])

/-! ## Display -/

/-- The display of a collection inside itself. -/
def Collection.dots : Collection → String
  | .list _ => "[...]"
  | .pairs _ => "[...]"
  | _ => "\x7b...\x7d"

/-- The display of a collection without parts. -/
def Collection.hollow : Collection → String
  | .list _ => "[]"
  | .pairs _ => "[]"
  | .map _ => "\x7b\x7d"
  | .set _ => "set()"

/-- The display of a set, given those of its keys. -/
def shownSet (keys : List String) : String :=
  if keys.isEmpty then "set()" else Display.braced keys

/-- The display of a pair. -/
def shownPair (first second : String) : String := "(" ++ first ++ ", " ++ second ++ ")"

/-- The display of a part inside the collections of the given nodes, which may go into the given
levels. A set is shown by way of a list of its keys, and a pair takes a level of its own. -/
def shownPart (cs : Collections) : (levels : Nat) → (inside : List NodeId) → Part →
    Except Limit String
  | levels, _, .atom a => a.shown levels
  | 0, inside, .collection id =>
    let c := collectionOf cs id
    if id ∈ inside then .ok c.dots else if c.isVacant then .ok c.hollow else .error .nesting
  | levels + 1, inside, .collection id =>
    let c := collectionOf cs id
    if id ∈ inside then .ok c.dots
    else
      match c with
      | .list items => (items.mapM (shownPart cs levels (id :: inside))).map Display.list
      | .map members => do
        let parts ← members.mapM fun (k, v) => do
          return Display.member (← k.shown levels) (← shownPart cs levels (id :: inside) v)
        return Display.braced parts
      | .set keys => do
        Display.enter levels keys.length
        return shownSet (← (shownOrder keys).mapM (Atom.shown (levels - 1)))
      | .pairs entries =>
        match levels with
        | 0 => do
          Display.enter 0 entries.length
          return Display.list []
        | levels + 1 => do
          let parts ← entries.mapM fun (a, b) => do
            return shownPair (← shownPart cs levels (id :: inside) a)
              (← shownPart cs levels (id :: inside) b)
          return Display.list parts

namespace Value

/-- A value of atoms only. -/
def ofAtom (a : Atom) : Value := ⟨#[], .atom a⟩

/-- The mapping without members. -/
def emptyMap : Value := ⟨#[.map []], .collection 0⟩

/-- Whether a value is vacant as an atom or has no parts. -/
def isVacant (v : Value) : Bool :=
  match v.root with
  | .atom a => a.isVacant
  | .collection id => (collectionOf v.collections id).isVacant

/-- The outermost layer of a value. -/
def outer (v : Value) : Layer Value :=
  match v.root with
  | .atom a => a.layer
  | .collection id =>
    match collectionOf v.collections id with
    | .list items => .list (items.map fun p => { v with root := p })
    | .map members => .map (members.map fun (k, p) => (k.label, { v with root := p }))
    | _ => .other

/-- The display of a value, which may go into the given levels. -/
def shown (levels : Nat) (v : Value) : Except Limit String :=
  shownPart v.collections levels [] v.root

instance : Layered Value where
  layer := outer
  shown := shown

end Value

end FieldProgram.Yaml

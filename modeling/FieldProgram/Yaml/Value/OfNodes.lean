import FieldProgram.Yaml.Node.Merge
import FieldProgram.Yaml.Number
import FieldProgram.Yaml.Value.Basic

/-!
# From nodes to values

The tag of a node says how its value is made. The value of each node is made once. A collection is
made empty and filled later, when those that were made before it have been filled; so of several
faults the one nearest to the root is reported, and a collection can be part of itself.
-/

namespace FieldProgram.Yaml

open Numeral

/-- Fails because of a node that its tag does not admit. -/
def wrongNode {α : Type} (tag : String) : Result α := .error (.malformed (.wrongNode tag))

/-! ## Atoms -/

/-- The truth value of a word in any case. -/
def truthOf (t : Text) : Result Bool :=
  match truthWords.find? fun w => t.lowered == w.1 with
  | some (_, b) => .ok b
  | none => .error (.value (.notTruth t.lowered))

/-- The date or time of a text. A line feed at its end does not count. -/
def timestampOf (t : Text) : Result Timestamp :=
  match (t.chars?.map dropLineFeed).bind Timestamp.ofChars? with
  | none => .error (.value .notTimestamp)
  | some t =>
    match Timestamp.fault? t with
    | some f => .error (.value f)
    | none => .ok t

/-- The octets of a text in base 64. -/
def octetsOf (t : Text) : Result (List UInt8) :=
  match t.chars?.bind Base64.decode with
  | some bs => .ok bs
  | none => .error (.malformed .badBinary)

/-- The text of a node with a tag for atoms: its own, or that of the member under `=`, for which
`levels` nodes may be looked at. -/
def textOf (g : Graph) : (levels : Nat) → NodeId → Result Text
  | 0, _ => .error (.value .tooDeep)
  | levels + 1, id =>
    match g.content id with
    | .scalar t => .ok t
    | .mapping ms =>
      match ms.find? fun m => g.tag m.1 = Tag.value with
      | some (_, v) => textOf g levels v
      | none => wrongNode (g.tag id)
    | .sequence _ => wrongNode (g.tag id)

/-- Whether a node is a scalar. -/
def isScalar (g : Graph) (id : NodeId) : Bool :=
  match g.content id with
  | .scalar _ => true
  | _ => false

/-- The atom of a node by its tag. -/
def atomOf (g : Graph) (levels : Nat) (id : NodeId) : Result Atom := do
  let tag := g.tag id
  if tag = Tag.null then
    let _ ← textOf g levels id
    return .null
  else if tag = Tag.bool then return .bool (← truthOf (← textOf g levels id))
  else if tag = Tag.int then return .int (← integerOf (← textOf g levels id))
  else if tag = Tag.float then return .float (← numberOf (← textOf g levels id))
  else if tag = Tag.binary then return .octets (← octetsOf (← textOf g levels id))
  else if tag = Tag.timestamp then
    let t ← textOf g levels id
    if isScalar g id then return .timestamp (← timestampOf t)
    else throw (.value .timestampMapping)
  else if tag = Tag.str then return .str (← textOf g levels id)
  else throw (.malformed (.undefinedTag tag))

/-- What makes the atom of a node the same key as another, beside its value: the node itself where
the atom is not a number and not so by name. -/
def sourceOf (g : Graph) (levels : Nat) (id : NodeId) : Option NodeId :=
  match textOf g levels id with
  | .ok t => if namesNan t then none else some id
  | .error _ => some id

/-! ## State -/

/-- What is known while values are made. -/
structure Maker where
  graph : Graph
  /-- The values made, by node. -/
  made : Array (Option Part)
  collections : Collections
  /-- The nodes of collections that are still to be filled, the last first. -/
  waiting : List NodeId := []

/-- A step that makes values. -/
abbrev Making := StateT Maker (Except ReadFault)

/-- The collection that a tag asks for, without its parts. -/
def emptyCollection? (tag : String) : Option Collection :=
  if tag = Tag.seq then some (.list [])
  else if tag = Tag.map then some (.map [])
  else if tag = Tag.set then some (.set [])
  else if tag = Tag.omap || tag = Tag.pairs then some (.pairs [])
  else none

namespace Maker

/-- Before any value is made. -/
def start (g : Graph) : Maker where
  graph := g
  made := Array.replicate g.size none
  collections := Array.replicate g.size (.list [])

/-- Takes note of the value of a node. -/
def keep (m : Maker) (id : NodeId) (p : Part) : Maker :=
  { m with made := m.made.setIfInBounds id (some p) }

def put (m : Maker) (id : NodeId) (c : Collection) : Maker :=
  { m with collections := m.collections.setIfInBounds id c }

end Maker

/-! ## Values -/

section

variable (room : Room)

/-- Makes the value of a node, a collection without its parts. -/
def make (id : NodeId) : Making Part := do
  let m ← get
  match m.made[id]?.join with
  | some p => return p
  | none =>
    match emptyCollection? (m.graph.tag id) with
    | some c =>
      let m := (m.put id c).keep id (.collection id)
      set { m with waiting := id :: m.waiting }
      return .collection id
    | none =>
      let a ← atomOf m.graph room.texts id
      set (m.keep id (.atom a))
      return .atom a

/-- Makes the atom that a node is as a key. -/
def makeKey (id : NodeId) : Making Atom := do
  match ← make room id with
  | .atom a => return a
  | .collection _ => throw (.malformed .unhashableKey)

/-- A member with what makes its key the same as others. -/
abbrev KeyedMember := Atom.Sameness × Atom × Part

/-- Puts a value under a key, keeping the first of keys that are the same. -/
def putMember (m : KeyedMember) : List KeyedMember → List KeyedMember
  | [] => [m]
  | n :: ms => if n.1 = m.1 then (n.1, n.2.1, m.2.2) :: ms else n :: putMember m ms

/-- Makes the members of a mapping. -/
def makeMembers (id : NodeId) : Making (List (Atom × Part)) := do
  let m ← get
  match m.graph.content id with
  | .mapping _ =>
    let g ← merge room.merges id m.graph
    set { m with graph := g }
    let members ← (g.members id).foldlM (fun members (k, v) => do
      let key ← makeKey room k
      let value ← make room v
      return putMember (key.sameness (sourceOf g room.texts k), key, value) members) []
    return members.map Prod.snd
  | _ => wrongNode (m.graph.tag id)

/-- Makes the pair of a mapping of one member. -/
def makePair (tag : String) (id : NodeId) : Making (Part × Part) := do
  match (← get).graph.content id with
  | .mapping [(k, v)] =>
    let first ← make room k
    let second ← make room v
    return (first, second)
  | _ => wrongNode tag

/-- Makes the parts of the collection of a node. -/
def makeCollection (id : NodeId) : Making Collection := do
  let g := (← get).graph
  let tag := g.tag id
  if tag = Tag.map then return .map (← makeMembers room id)
  else if tag = Tag.set then return .set ((← makeMembers room id).map Prod.fst)
  else
    match g.content id with
    | .sequence items =>
      if tag = Tag.seq then return .list (← items.mapM (make room))
      else return .pairs (← items.mapM (makePair room tag))
    | _ => wrongNode tag

/-- Fills the collections that are waiting, those that were made first before the others. Each turn
fills a collection or brings up those that have come to wait, so twice as many turns as nodes are
enough. -/
def fillAll : (fuel : Nat) → (turn : List NodeId) → Making Unit
  | 0, _ => return ()
  | fuel + 1, [] => do
    let m ← get
    if m.waiting.isEmpty then return ()
    else
      set { m with waiting := [] }
      fillAll fuel m.waiting.reverse
  | fuel + 1, id :: turn => do
    let c ← makeCollection room id
    modify (·.put id c)
    fillAll fuel turn

/-- Makes the value of a node with all that is part of it. -/
def makeAll (root : NodeId) : Making Part := do
  let p ← make room root
  fillAll room (2 * (← get).graph.size + 2) []
  return p

end

/-- The value of a node of a graph, made in the given room. -/
def Graph.value (room : Room) (g : Graph) (root : NodeId) : Result Value := do
  let (p, m) ← (makeAll room root).run (.start g)
  return ⟨m.collections, p⟩

end FieldProgram.Yaml

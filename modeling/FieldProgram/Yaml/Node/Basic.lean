import FieldProgram.Yaml.Form
import FieldProgram.Yaml.Timestamp
import FieldProgram.Yaml.Token

/-!
# Nodes of YAML

A node is a scalar, a sequence or a mapping, with a tag that says what it stands for. Its parts are
nodes by number, because an alias makes one node a part of several, and even of itself. `Graph`
holds the nodes; `node_add` says that a new node is the one that was given.
-/

namespace FieldProgram.Yaml

/-- The number of a node. -/
abbrev NodeId := Nat

/-- The members of a mapping. -/
abbrev Members := List (NodeId × NodeId)

/-- What a node is made of. -/
inductive Content
  | scalar (text : Text)
  | sequence (items : List NodeId)
  | mapping (members : Members)
  deriving DecidableEq, Repr, Inhabited

structure Node where
  tag : String
  content : Content
  deriving DecidableEq, Repr, Inhabited

/-- Nodes by number. -/
structure Graph where
  nodes : Array Node := #[]
  deriving Repr, Inhabited

namespace Tag

/-- The tag of the given name in the standard. -/
def standard (name : String) : String := "tag:yaml.org,2002:" ++ name

def null : String := standard "null"
def bool : String := standard "bool"
def int : String := standard "int"
def float : String := standard "float"
def str : String := standard "str"
def seq : String := standard "seq"
def map : String := standard "map"
def set : String := standard "set"
def omap : String := standard "omap"
def pairs : String := standard "pairs"
def binary : String := standard "binary"
def timestamp : String := standard "timestamp"
def merge : String := standard "merge"
def value : String := standard "value"
def yaml : String := standard "yaml"

/-- The tag that the form of characters tells, a line feed at their end being gone. -/
def ofLine (cs : List Char) : String :=
  if isBoolForm cs then bool
  else if isFloatForm cs then float
  else if isIntForm cs then int
  else if cs = ['<', '<'] then merge
  else if isNullForm cs then null
  else if Timestamp.isForm cs then timestamp
  else if cs = ['='] then value
  else if cs = ['!'] || cs = ['&'] || cs = ['*'] then yaml
  else str

/-- The tag that the form of a plain scalar tells. A text that starts with a line feed has none of
the forms. -/
def ofForm (t : Text) : String :=
  match t.chars? with
  | none => str
  | some cs => if cs.head? = some '\n' then str else ofLine (dropLineFeed cs)

end Tag

namespace Graph

/-- The number of nodes. -/
def size (g : Graph) : Nat := g.nodes.size

/-- The node of a number. -/
def node (g : Graph) (id : NodeId) : Node := g.nodes[id]?.getD default

def tag (g : Graph) (id : NodeId) : String := (g.node id).tag

def content (g : Graph) (id : NodeId) : Content := (g.node id).content

/-- The members of a mapping; other nodes have none. -/
def members (g : Graph) (id : NodeId) : Members :=
  match g.content id with
  | .mapping ms => ms
  | _ => []

/-- Adds a node, and says its number. -/
def add (g : Graph) (n : Node) : NodeId × Graph := (g.size, ⟨g.nodes.push n⟩)

/-- Changes a node. -/
def change (g : Graph) (id : NodeId) (f : Node → Node) : Graph := ⟨g.nodes.modify id f⟩

/-- Gives other content to a node. -/
def fill (g : Graph) (id : NodeId) (content : Content) : Graph :=
  g.change id fun n => { n with content }

theorem node_add (g : Graph) (n : Node) : (g.add n).2.node (g.add n).1 = n := by
  simp [add, node, size]

end Graph

end FieldProgram.Yaml

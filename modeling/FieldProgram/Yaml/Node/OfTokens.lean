import FieldProgram.Yaml.Node.Basic

/-!
# From tokens to nodes

A stream holds one document at most. A recursive descent over its tokens adds the nodes to a graph,
resolves tags and replaces aliases. A collection is added before its parts, which may refer to it. A
mark that breaks off the tokens is a fault as soon as the descent looks at it, and not before.
-/

namespace FieldProgram.Yaml

/-! ## State -/

/-- Handles of tags with what they stand for. -/
abbrev Handles := List (String × String)

def defaultHandles : Handles := [("!", "!"), ("!!", Tag.standard "")]

/-- The tokens that are left, the nodes so far, and which of them have names. -/
structure Composer where
  tokens : List Token
  handles : Handles
  anchors : List (String × NodeId) := []
  graph : Graph := {}
  /-- How many more collections may be inside the one that the next token is inside of. -/
  levels : Nat

/-- Looks at the next token. -/
def peek : List Token → Result Token
  | [] => expected "the end"
  | .broken f :: _ => .error (.value f)
  | t :: _ => .ok t

namespace Composer

/-- Looks at the next token. -/
def next (s : Composer) : Result Token := peek s.tokens

def drop (s : Composer) : Composer := { s with tokens := s.tokens.tail }

/-- Adds a node, under a name if one is given. -/
def add (s : Composer) (anchor : Option String) (tag : String) (content : Content) :
    NodeId × Composer :=
  let (id, graph) := s.graph.add ⟨tag, content⟩
  let anchors := match anchor with
    | none => s.anchors
    | some a => (a, id) :: s.anchors
  (id, { s with graph, anchors })

/-- Gives content to a node. -/
def fill (s : Composer) (id : NodeId) (content : Content) : Composer :=
  { s with graph := s.graph.fill id content }

/-- Adds a node without text. -/
def addEmpty (s : Composer) : NodeId × Composer := s.add none Tag.null (.scalar "")

end Composer

/-! ## Properties of nodes -/

/-- The anchor and the tag before a node. -/
structure Properties where
  anchor : Option String
  tag : Option TagName

/-- Reads an anchor and a tag in either order. -/
def properties (s : Composer) : Result (Properties × Composer) := do
  match ← s.next with
  | .anchor a =>
    match ← s.drop.next with
    | .tag t => return (⟨some a, some t⟩, s.drop.drop)
    | _ => return (⟨some a, none⟩, s.drop)
  | .tag t =>
    match ← s.drop.next with
    | .anchor a => return (⟨some a, some t⟩, s.drop.drop)
    | _ => return (⟨none, some t⟩, s.drop)
  | _ => return (⟨none, none⟩, s)

/-- The tag that a written tag stands for. -/
def fullTag (handles : Handles) (t : TagName) : Result String :=
  match t.handle with
  | none => .ok t.rest
  | some h =>
    match handles.lookup h with
    | some expansion => .ok (expansion ++ t.rest)
    | none => .error (.malformed (.undefinedHandle h))

/-- The tag of a collection, which an exclamation mark alone leaves open. -/
def collectionTag (default : String) : Option String → String
  | none => default
  | some t => if t = "!" then default else t

/-- The tag of a scalar. An exclamation mark alone leaves it to the form, even between quotes. -/
def scalarTag (plain : Bool) (text : Text) : Option String → String
  | none => if plain then Tag.ofForm text else Tag.str
  | some t => if t = "!" then Tag.ofForm text else t

/-- Refuses a name that a node has already. -/
def freshAnchor (s : Composer) : Option String → Result Unit
  | none => .ok ()
  | some a =>
    if (s.anchors.lookup a).isSome then .error (.malformed (.repeatedAnchor a)) else .ok ()

/-- The node that an alias names. -/
def aliased (s : Composer) (name : String) : Result (NodeId × Composer) :=
  match s.anchors.lookup name with
  | some id => .ok (id, s.drop)
  | none => .error (.malformed (.undefinedAlias name))

/-! ## Nodes -/

/-- What a node may start with at a place. -/
inductive Place
  /-- Inside brackets. -/
  | flow
  | block
  /-- In a mapping of a block, where a sequence need not be indented. -/
  | member
  deriving DecidableEq, Repr

/-- What starts at a place, by the token there. -/
inductive Start
  | scalar (plain : Bool) (text : Text)
  | flowSequence
  | flowMapping
  | blockSequence
  | indentlessSequence
  | blockMapping
  | nothing
  deriving DecidableEq, Repr

/-- What a token starts at a place. -/
def Start.ofToken (place : Place) : Token → Start
  | .scalar plain text => .scalar plain text
  | .flowSequenceStart => .flowSequence
  | .flowMappingStart => .flowMapping
  | .blockEntry => if place = .member then .indentlessSequence else .nothing
  | .blockSequenceStart => if place = .flow then .nothing else .blockSequence
  | .blockMappingStart => if place = .flow then .nothing else .blockMapping
  | _ => .nothing

/-- Reads the parts of a collection, unless it is inside too many others. -/
def inside {α : Type} (s : Composer) (read : Composer → Result (α × Composer)) :
    Result (α × Composer) := do
  let levels ← further s.levels
  let (parts, t) ← read { s with levels }
  return (parts, { t with levels := s.levels })

/-- Adds a sequence and then its items, as `read` finds them. -/
def addSequence (s : Composer) (anchor tag : Option String)
    (read : Composer → Result (List NodeId × Composer)) : Result (NodeId × Composer) := do
  let (id, s) := s.add anchor (collectionTag Tag.seq tag) (.sequence [])
  let (items, s) ← inside s read
  return (id, s.fill id (.sequence items))

/-- Adds a mapping and then its members, as `read` finds them. -/
def addMapping (s : Composer) (anchor tag : Option String)
    (read : Composer → Result (Members × Composer)) : Result (NodeId × Composer) := do
  let (id, s) := s.add anchor (collectionTag Tag.map tag) (.mapping [])
  let (members, s) ← inside s read
  return (id, s.fill id (.mapping members))

mutual

/-- A node at a place. -/
def node (place : Place) : (fuel : Nat) → Composer → Result (NodeId × Composer)
  | 0, _ => expected "the end"
  | fuel + 1, s => do
    match ← s.next with
    | .alias a => aliased s a
    | _ =>
      let (p, s) ← properties s
      let tag ← p.tag.mapM (fullTag s.handles)
      let start := Start.ofToken place (← s.next)
      if start = .nothing && p.anchor.isNone && tag.isNone then expected "the node content"
      else
        freshAnchor s p.anchor
        match start with
        | .scalar plain text => return s.drop.add p.anchor (scalarTag plain text tag) (.scalar text)
        | .flowSequence => addSequence s.drop p.anchor tag (flowItems fuel true [])
        | .flowMapping => addMapping s.drop p.anchor tag (flowMembers fuel true [])
        | .blockSequence => addSequence s.drop p.anchor tag (blockItems fuel [])
        | .indentlessSequence => addSequence s p.anchor tag (indentlessItems fuel [])
        | .blockMapping => addMapping s.drop p.anchor tag (blockMembers fuel [])
        | .nothing => return s.add p.anchor (scalarTag true "" tag) (.scalar "")

/-- A node, or an empty one before the given tokens. -/
def nodeUnless (place : Place) (fuel : Nat) (ends : List Token) (s : Composer) :
    Result (NodeId × Composer) :=
  match fuel with
  | 0 => expected "the end"
  | fuel + 1 => do
    let t ← s.next
    if t ∈ ends then return s.addEmpty else node place fuel s

/-- The items of an indented sequence onto those read, up to its end. -/
def blockItems : (fuel : Nat) → (read : List NodeId) → Composer → Result (List NodeId × Composer)
  | 0, _, _ => expected "the end"
  | fuel + 1, read, s => do
    match ← s.next with
    | .blockEntry =>
      let (n, s) ← nodeUnless .block fuel [.blockEntry, .blockEnd] s.drop
      blockItems fuel (n :: read) s
    | .blockEnd => return (read.reverse, s.drop)
    | _ => expected "<block end>"

/-- The items of a sequence that is not indented onto those read. -/
def indentlessItems : (fuel : Nat) → (read : List NodeId) → Composer →
    Result (List NodeId × Composer)
  | 0, _, _ => expected "the end"
  | fuel + 1, read, s => do
    match ← s.next with
    | .blockEntry =>
      let (n, s) ← nodeUnless .block fuel [.blockEntry, .key, .value, .blockEnd] s.drop
      indentlessItems fuel (n :: read) s
    | _ => return (read.reverse, s)

/-- A value behind its mark, or an empty one where there is no mark. -/
def valueUnless (place : Place) (fuel : Nat) (ends : List Token) (s : Composer) :
    Result (NodeId × Composer) :=
  match fuel with
  | 0 => expected "the end"
  | fuel + 1 => do
    match ← s.next with
    | .value => nodeUnless place fuel ends s.drop
    | _ => return s.addEmpty

/-- The members of a mapping of a block onto those read, up to its end. -/
def blockMembers : (fuel : Nat) → (read : Members) → Composer → Result (Members × Composer)
  | 0, _, _ => expected "the end"
  | fuel + 1, read, s => do
    match ← s.next with
    | .key =>
      let (k, s) ← nodeUnless .member fuel [.key, .value, .blockEnd] s.drop
      let (v, s) ← valueUnless .member fuel [.key, .value, .blockEnd] s
      blockMembers fuel ((k, v) :: read) s
    | .blockEnd => return (read.reverse, s.drop)
    | _ => expected "<block end>"

/-- The items of a sequence in brackets onto those read, up to its end. -/
def flowItems : (fuel : Nat) → (first : Bool) → (read : List NodeId) → Composer →
    Result (List NodeId × Composer)
  | 0, _, _, _ => expected "the end"
  | fuel + 1, first, read, s => do
    match first, ← s.next with
    | _, .flowSequenceEnd => return (read.reverse, s.drop)
    | true, _ => flowItem fuel read s
    | false, .flowEntry => flowItem fuel read s.drop
    | false, _ => expected "',' or ']'"

/-- The next item in brackets and those behind it. An item with a key is a mapping of one member;
the end may come instead of an item. -/
def flowItem (fuel : Nat) (read : List NodeId) (s : Composer) : Result (List NodeId × Composer) :=
  match fuel with
  | 0 => expected "the end"
  | fuel + 1 => do
    match ← s.next with
    | .key =>
      let (n, s) ← addMapping s.drop none none fun s => do
        let (k, s) ← nodeUnless .flow fuel [.value, .flowEntry, .flowSequenceEnd] s
        let (v, s) ← valueUnless .flow fuel [.flowEntry, .flowSequenceEnd] s
        return ([(k, v)], s)
      flowItems fuel false (n :: read) s
    | .flowSequenceEnd => return (read.reverse, s.drop)
    | _ =>
      let (n, s) ← node .flow fuel s
      flowItems fuel false (n :: read) s

/-- The members of a mapping in braces onto those read, up to its end. -/
def flowMembers : (fuel : Nat) → (first : Bool) → (read : Members) → Composer →
    Result (Members × Composer)
  | 0, _, _, _ => expected "the end"
  | fuel + 1, first, read, s => do
    match first, ← s.next with
    | _, .flowMappingEnd => return (read.reverse, s.drop)
    | true, _ => flowMember fuel read s
    | false, .flowEntry => flowMember fuel read s.drop
    | false, _ => expected "',' or '\x7d'"

/-- The next member in braces and those behind it. An item without a key mark is a key without a
value; the end may come instead of a member. -/
def flowMember (fuel : Nat) (read : Members) (s : Composer) : Result (Members × Composer) :=
  match fuel with
  | 0 => expected "the end"
  | fuel + 1 => do
    match ← s.next with
    | .key =>
      let (k, s) ← nodeUnless .flow fuel [.value, .flowEntry, .flowMappingEnd] s.drop
      let (v, s) ← valueUnless .flow fuel [.flowEntry, .flowMappingEnd] s
      flowMembers fuel false ((k, v) :: read) s
    | .flowMappingEnd => return (read.reverse, s.drop)
    | _ =>
      let (k, s) ← node .flow fuel s
      let (v, s) := s.addEmpty
      flowMembers fuel false ((k, v) :: read) s

end

/-! ## Documents -/

/-- Reads directives onto the handles known and whether a version was given. -/
def directives : List Token → (versioned : Bool) → Handles → Result (Handles × List Token)
  | .directive (.version major) :: ts, versioned, hs =>
    if versioned || major ≠ 1 then .error (.malformed (.directive "YAML"))
    else directives ts true hs
  | .directive (.handle h expansion) :: ts, versioned, hs =>
    if (hs.lookup h).isSome then .error (.malformed (.directive "TAG"))
    else directives ts versioned ((h, expansion) :: hs)
  | .directive (.other _) :: ts, versioned, hs => directives ts versioned hs
  | ts, _, hs => .ok (hs ++ defaultHandles, ts)

/-- Whether the content of a document is missing before a token. -/
def endsContent : Token → Bool
  | .directive _ => true
  | .documentStart => true
  | .documentEnd => true
  | .streamEnd => true
  | _ => false

/-- Passes the ends of documents. -/
def skipEnds (ts : List Token) : List Token := ts.dropWhile (· == .documentEnd)

/-- Sees that a document is the last. -/
def lastDocument (ts : List Token) : Result Unit := do
  let ts := skipEnds ts
  match ← peek ts with
  | .streamEnd => return ()
  | _ =>
    let (_, ts) ← directives ts false []
    let _ ← peek ts
    expected "a single document"

/-- The root of a document and the nodes, of which the content starts here. -/
def content (levels : Nat) (handles : Handles) (ts : List Token) : Result (NodeId × Graph) := do
  let (root, s) ← node .block (4 * ts.length + 4) { tokens := ts, handles, levels }
  lastDocument s.tokens
  return (root, s.graph)

/-- The root of a document and the nodes, of which the mark of the document was read. -/
def markedContent (levels : Nat) (handles : Handles) (ts : List Token) :
    Result (NodeId × Graph) := do
  if endsContent (← peek ts) then
    lastDocument ts
    let (root, s) := ({ tokens := ts, handles, levels } : Composer).addEmpty
    return (root, s.graph)
  else content levels handles ts

/-- The root of a document and the nodes, of which the directives and the mark come first. -/
def explicitDocument (levels : Nat) (ts : List Token) : Result (NodeId × Graph) := do
  let (handles, ts) ← directives ts false []
  match ← peek ts with
  | .documentStart => markedContent levels handles ts.tail
  | _ => expected "<document start>"

/-- The root of the document in a stream and the nodes, if there is a document. Collections may be
`levels` deep. -/
def nodesOfTokens (levels : Nat) (ts : List Token) : Result (Option (NodeId × Graph)) := do
  match ← peek ts with
  | .streamEnd => return none
  | .directive _ => return some (← explicitDocument levels ts)
  | .documentStart => return some (← explicitDocument levels ts)
  | _ => return some (← content levels defaultHandles ts)

end FieldProgram.Yaml

import FieldProgram.Proofs.Outcome
import FieldProgram.Proofs.Yaml.Brackets
import FieldProgram.Yaml.Node.OfTokens
import Mathlib.Data.List.Forall2

/-!
# Nodes of values in brackets

From the tokens of a value in brackets the composer makes nodes, and nothing happens to the nodes
that there were before. The keys of a mapping are texts.

* `Graph.Extends`: a graph has the nodes of another and others behind them;
* `node_item`, `flowItem_items`, `flowMember_members`: what is composed of the tokens of a value, of
  a list and of a mapping;
* `nodesOfTokens_members`, `nodesOfTokens_items`: the root of a text that is a mapping, with the
  nodes of its keys, or a list.
-/

namespace FieldProgram.Yaml

/-! ## Graphs that grow -/

namespace Graph

variable {g h k : Graph} {id : NodeId}

/-- A graph has the nodes of another one and others behind them. -/
structure Extends (g h : Graph) : Prop where
  size : g.size ≤ h.size
  node (id : NodeId) (old : id < g.size) : h.node id = g.node id

theorem Extends.refl (g : Graph) : g.Extends g := ⟨Nat.le_refl _, fun _ _ => rfl⟩

theorem Extends.trans (gh : g.Extends h) (hk : h.Extends k) : g.Extends k where
  size := Nat.le_trans gh.size hk.size
  node id old := (hk.node id (Nat.lt_of_lt_of_le old gh.size)).trans (gh.node id old)

@[simp] theorem size_add (g : Graph) (n : Node) : (g.add n).2.size = g.size + 1 := by
  simp [add, size]

@[simp] theorem size_change (g : Graph) (id : NodeId) (f : Node → Node) :
    (g.change id f).size = g.size := by
  simp [change, size]

@[simp] theorem size_fill (g : Graph) (id : NodeId) (c : Content) : (g.fill id c).size = g.size :=
  size_change g id _

theorem extends_add (g : Graph) (n : Node) : g.Extends (g.add n).2 where
  size := by simp
  node id old := by
    rw [size] at old
    simp [add, node, Array.getElem?_push, Nat.ne_of_lt old]

theorem node_change_of_ne {other : NodeId} (f : Node → Node) (ne : other ≠ id) :
    (g.change id f).node other = g.node other := by
  simp [change, node, Array.getElem?_modify, Ne.symm ne]

theorem node_change (f : Node → Node) (old : id < g.size) :
    (g.change id f).node id = f (g.node id) := by
  rw [size] at old
  simp [change, node, old, Array.getElem_modify]

/-- Changing a node that is new leaves the others as they are. -/
theorem Extends.fill (gh : g.Extends h) (new : g.size ≤ id) (c : Content) :
    g.Extends (h.fill id c) where
  size := by simpa using gh.size
  node other old := by
    rw [Graph.fill, node_change_of_ne _ (Nat.ne_of_lt (Nat.lt_of_lt_of_le old new))]
    exact gh.node other old

end Graph

/-! ## Nodes one by one -/

variable {s t : Composer} {place : Place} {fuel : Nat} {id : NodeId} {more ts us : List Token}

theorem next_of_tokens {token : Token} (tokens : s.tokens = token :: more)
    (whole : ∀ f, token ≠ .broken f) : s.next = .ok token := by
  rw [Composer.next, tokens]
  unfold peek
  split
  · rename_i same
    cases same
  · rename_i same
    exact absurd (List.cons.inj same).1 (whole _)
  · rename_i same
    rw [(List.cons.inj same).1]

/-- The tokens that values in brackets start with. -/
inductive StartsItem : Token → Prop
  | scalar (plain : Bool) (t : Text) : StartsItem (.scalar plain t)
  | list : StartsItem .flowSequenceStart
  | map : StartsItem .flowMappingStart

theorem IsItem.starts (h : IsItem ts) : ∃ t r, ts = t :: r ∧ StartsItem t := by
  cases h with
  | scalar plain t => exact ⟨_, _, rfl, .scalar plain t⟩
  | emptyList => exact ⟨_, _, rfl, .list⟩
  | list items => exact ⟨_, _, rfl, .list⟩
  | emptyMap => exact ⟨_, _, rfl, .map⟩
  | map members => exact ⟨_, _, rfl, .map⟩

theorem IsItems.starts (h : IsItems ts) : ∃ t r, ts = t :: r ∧ StartsItem t := by
  cases h with
  | last item =>
    obtain ⟨t, r, rfl, starts⟩ := item.starts
    exact ⟨t, _, rfl, starts⟩
  | more item others =>
    obtain ⟨t, r, rfl, starts⟩ := item.starts
    exact ⟨t, _, rfl, starts⟩

/-- The tokens that members in braces start with. -/
inductive StartsMember : Token → Prop
  | marked : StartsMember .key
  | bare (t : Text) : StartsMember (.scalar false t)

theorem IsMembers.starts {keys : List Text} (h : IsMembers keys ts) :
    ∃ t r, ts = t :: r ∧ StartsMember t := by
  cases h with
  | last name => cases name with
    | marked => exact ⟨_, _, rfl, .marked⟩
    | bare => exact ⟨_, _, rfl, .bare _⟩
  | more name => cases name with
    | marked => exact ⟨_, _, rfl, .marked⟩
    | bare => exact ⟨_, _, rfl, .bare _⟩

theorem node_scalar {plain : Bool} {text : Text} (tokens : s.tokens = .scalar plain text :: more) :
    node place (fuel + 1) s =
      .ok (s.drop.add none (scalarTag plain text none) (.scalar text)) := by
  have next := next_of_tokens tokens (by simp)
  rw [node, next]
  simp only [properties, next]
  simp [bind, Except.bind, pure, Except.pure, next, Start.ofToken, freshAnchor]

theorem node_sequence (tokens : s.tokens = .flowSequenceStart :: more) :
    node place (fuel + 1) s = addSequence s.drop none none (flowItems fuel true []) := by
  have next := next_of_tokens tokens (by simp)
  rw [node, next]
  simp only [properties, next]
  simp [bind, Except.bind, pure, Except.pure, next, Start.ofToken, freshAnchor]

theorem node_mapping (tokens : s.tokens = .flowMappingStart :: more) :
    node place (fuel + 1) s = addMapping s.drop none none (flowMembers fuel true []) := by
  have next := next_of_tokens tokens (by simp)
  rw [node, next]
  simp only [properties, next]
  simp [bind, Except.bind, pure, Except.pure, next, Start.ofToken, freshAnchor]

/-- What composing leaves: the tokens behind, and the nodes that there were. -/
structure Leaves (s t : Composer) (more : List Token) : Prop where
  tokens : t.tokens = more
  graph : s.graph.Extends t.graph

theorem Leaves.trans {r : Composer} {more' : List Token} (h : Leaves s t more')
    (h' : Leaves t r more) : Leaves s r more :=
  ⟨h'.tokens, h.graph.trans h'.graph⟩

theorem leaves_drop {token : Token} (tokens : s.tokens = token :: more) : Leaves s s.drop more :=
  ⟨by rw [Composer.drop, tokens]; rfl, .refl _⟩

theorem leaves_scalar {plain : Bool} {text : Text} (tokens : s.tokens = .scalar plain text :: more)
    (done : node place (fuel + 1) s = .ok (id, t)) : Leaves s t more := by
  rw [node_scalar tokens] at done
  obtain ⟨-, rfl⟩ := Prod.mk.inj (Except.ok.inj done)
  exact ⟨(leaves_drop tokens).tokens, s.graph.extends_add _⟩

theorem inside_cases {α : Type} {parts : α} {read : Composer → Result (α × Composer)}
    (done : inside s read = .ok (parts, t)) :
    ∃ s' t', s'.tokens = s.tokens ∧ s'.graph = s.graph ∧ read s' = .ok (parts, t') ∧
      t.tokens = t'.tokens ∧ t.graph = t'.graph := by
  obtain ⟨levels, -, done⟩ := Except.bind_eq_ok.mp done
  obtain ⟨⟨_, t'⟩, hread, same⟩ := Except.bind_eq_ok.mp done
  obtain ⟨rfl, rfl⟩ := Prod.mk.inj (Except.ok.inj same)
  exact ⟨{ s with levels }, t', rfl, rfl, hread, rfl, rfl⟩

/-- A collection is put into the graph before its parts, and filled with them. -/
structure Fills (s s' t t' : Composer) (id : NodeId) (tag : String) (start parts : Content) :
    Prop where
  before : s'.tokens = s.tokens
  added : s'.graph = (s.graph.add ⟨tag, start⟩).2
  behind : t.tokens = t'.tokens
  number : id = s.graph.size
  filled : t.graph = t'.graph.fill id parts

theorem addSequence_cases {read : Composer → Result (List NodeId × Composer)}
    (done : addSequence s none none read = .ok (id, t)) :
    ∃ s' items t', read s' = .ok (items, t') ∧
      Fills s s' t t' id Tag.seq (.sequence []) (.sequence items) := by
  obtain ⟨⟨items, u⟩, hread, same⟩ := Except.bind_eq_ok.mp done
  obtain ⟨rfl, rfl⟩ := Prod.mk.inj (Except.ok.inj same)
  obtain ⟨s', t', before, added, hread, behind, filled⟩ := inside_cases hread
  exact ⟨s', items, t', hread, before, added, behind, rfl, congrArg (Graph.fill · _ _) filled⟩

theorem addMapping_cases {read : Composer → Result (Members × Composer)}
    (done : addMapping s none none read = .ok (id, t)) :
    ∃ s' ms t', read s' = .ok (ms, t') ∧
      Fills s s' t t' id Tag.map (.mapping []) (.mapping ms) := by
  obtain ⟨⟨ms, u⟩, hread, same⟩ := Except.bind_eq_ok.mp done
  obtain ⟨rfl, rfl⟩ := Prod.mk.inj (Except.ok.inj same)
  obtain ⟨s', t', before, added, hread, behind, filled⟩ := inside_cases hread
  exact ⟨s', ms, t', hread, before, added, behind, rfl, congrArg (Graph.fill · _ _) filled⟩

theorem Fills.leaves {s' t' : Composer} {tag : String} {start parts : Content}
    (h : Fills s s' t t' id tag start parts) (left : Leaves s' t' more) : Leaves s t more := by
  have grown : s.graph.Extends s'.graph := h.added ▸ s.graph.extends_add _
  refine ⟨h.behind.trans left.tokens, ?_⟩
  rw [h.filled, h.number]
  exact (grown.trans left.graph).fill (Nat.le_refl _) parts

/-- A list in brackets leaves what its items leave. -/
theorem node_sequence_cases (tokens : s.tokens = .flowSequenceStart :: more)
    (done : node place fuel s = .ok (id, t)) :
    ∃ s' items t' fuel', s'.tokens = more ∧ flowItems fuel' true [] s' = .ok (items, t') ∧
      ∀ rest, Leaves s' t' rest → Leaves s t rest := by
  cases fuel with
  | zero => cases done
  | succ fuel =>
    rw [node_sequence tokens] at done
    have dropped := leaves_drop tokens
    obtain ⟨s', items, t', read, fills⟩ := addSequence_cases done
    exact ⟨s', items, t', fuel, fills.before.trans dropped.tokens, read,
      fun _ left => dropped.trans (fills.leaves left)⟩

/-- A mapping in braces leaves what its members leave. -/
theorem node_mapping_cases (tokens : s.tokens = .flowMappingStart :: more)
    (done : node place fuel s = .ok (id, t)) :
    ∃ s' ms t' fuel', s'.tokens = more ∧ flowMembers fuel' true [] s' = .ok (ms, t') ∧
      ∀ rest, Leaves s' t' rest → Leaves s t rest := by
  cases fuel with
  | zero => cases done
  | succ fuel =>
    rw [node_mapping tokens] at done
    have dropped := leaves_drop tokens
    obtain ⟨s', ms, t', read, fills⟩ := addMapping_cases done
    exact ⟨s', ms, t', fuel, fills.before.trans dropped.tokens, read,
      fun _ left => dropped.trans (fills.leaves left)⟩

/-! ## Parts of collections -/

theorem flowItems_end {first : Bool} {read items : List NodeId}
    (tokens : s.tokens = .flowSequenceEnd :: more)
    (done : flowItems fuel first read s = .ok (items, t)) :
    Leaves s t more ∧ items = read.reverse := by
  cases fuel with
  | zero => cases done
  | succ fuel =>
    rw [flowItems, next_of_tokens tokens (by simp)] at done
    cases first <;>
    · obtain ⟨rfl, rfl⟩ := Prod.mk.inj (Except.ok.inj done)
      exact ⟨leaves_drop tokens, rfl⟩

theorem flowItems_entry {read items : List NodeId} (tokens : s.tokens = .flowEntry :: more)
    (done : flowItems fuel false read s = .ok (items, t)) :
    ∃ fuel', flowItem fuel' read s.drop = .ok (items, t) := by
  cases fuel with
  | zero => cases done
  | succ fuel =>
    rw [flowItems, next_of_tokens tokens (by simp)] at done
    exact ⟨fuel, done⟩

theorem flowItems_first {read xs : List NodeId} (items : IsItems ts)
    (tokens : s.tokens = ts ++ more) (done : flowItems fuel true read s = .ok (xs, t)) :
    ∃ fuel', flowItem fuel' read s = .ok (xs, t) := by
  obtain ⟨token, r, rfl, starts⟩ := items.starts
  cases fuel with
  | zero => cases done
  | succ fuel =>
    rw [flowItems, next_of_tokens tokens (by cases starts <;> simp)] at done
    refine ⟨fuel, ?_⟩
    cases starts <;> exact done

/-- An item starts with no key, and the items behind it are read onto it. -/
theorem flowItem_item {read items : List NodeId} (item : IsItem ts) (tokens : s.tokens = ts ++ more)
    (done : flowItem fuel read s = .ok (items, t)) :
    ∃ fuel' n s', node .flow fuel' s = .ok (n, s') ∧
      ∃ fuel'', flowItems fuel'' false (n :: read) s' = .ok (items, t) := by
  obtain ⟨token, r, rfl, starts⟩ := item.starts
  cases fuel with
  | zero => cases done
  | succ fuel =>
    rw [flowItem, next_of_tokens tokens (by cases starts <;> simp)] at done
    have parts : (node .flow fuel s >>= fun r => flowItems fuel false (r.1 :: read) r.2) =
        .ok (items, t) := by cases starts <;> exact done
    obtain ⟨⟨n, s'⟩, hnode, behind⟩ := Except.bind_eq_ok.mp parts
    exact ⟨fuel, n, s', hnode, fuel, behind⟩

theorem flowMembers_end {first : Bool} {read members : Members}
    (tokens : s.tokens = .flowMappingEnd :: more)
    (done : flowMembers fuel first read s = .ok (members, t)) :
    Leaves s t more ∧ members = read.reverse := by
  cases fuel with
  | zero => cases done
  | succ fuel =>
    rw [flowMembers, next_of_tokens tokens (by simp)] at done
    cases first <;>
    · obtain ⟨rfl, rfl⟩ := Prod.mk.inj (Except.ok.inj done)
      exact ⟨leaves_drop tokens, rfl⟩

theorem flowMembers_entry {read members : Members} (tokens : s.tokens = .flowEntry :: more)
    (done : flowMembers fuel false read s = .ok (members, t)) :
    ∃ fuel', flowMember fuel' read s.drop = .ok (members, t) := by
  cases fuel with
  | zero => cases done
  | succ fuel =>
    rw [flowMembers, next_of_tokens tokens (by simp)] at done
    exact ⟨fuel, done⟩

theorem flowMembers_first {keys : List Text} {read ms : Members} (members : IsMembers keys ts)
    (tokens : s.tokens = ts ++ more) (done : flowMembers fuel true read s = .ok (ms, t)) :
    ∃ fuel', flowMember fuel' read s = .ok (ms, t) := by
  obtain ⟨token, r, rfl, starts⟩ := members.starts
  cases fuel with
  | zero => cases done
  | succ fuel =>
    rw [flowMembers, next_of_tokens tokens (by cases starts <;> simp)] at done
    refine ⟨fuel, ?_⟩
    cases starts <;> exact done

/-- The node is the text of a key. -/
def IsKeyNode (g : Graph) (id : NodeId) (key : Text) : Prop :=
  id < g.size ∧ g.node id = ⟨Tag.str, .scalar key⟩

theorem IsKeyNode.extends {g h : Graph} {key : Text} (node : IsKeyNode g id key)
    (gh : g.Extends h) : IsKeyNode h id key :=
  ⟨Nat.lt_of_lt_of_le node.1 gh.size, (gh.node id node.1).trans node.2⟩

theorem nodeUnless_node {token : Token} {ends : List Token} {r : NodeId × Composer}
    (tokens : s.tokens = token :: more) (starts : StartsItem token) (others : token ∉ ends)
    (done : nodeUnless place fuel ends s = .ok r) : ∃ fuel', node place fuel' s = .ok r := by
  cases fuel with
  | zero => cases done
  | succ fuel =>
    rw [nodeUnless, next_of_tokens tokens (by cases starts <;> simp)] at done
    have read : (if token ∈ ends then .ok s.addEmpty else node place fuel s) = .ok r := done
    rw [if_neg others] at read
    exact ⟨fuel, read⟩

theorem valueUnless_node {token : Token} {ends : List Token} {r : NodeId × Composer}
    (tokens : s.tokens = .value :: token :: more) (starts : StartsItem token)
    (others : token ∉ ends) (done : valueUnless place fuel ends s = .ok r) :
    ∃ fuel', node place fuel' s.drop = .ok r := by
  cases fuel with
  | zero => cases done
  | succ fuel =>
    rw [valueUnless, next_of_tokens tokens (by simp)] at done
    have read : nodeUnless place fuel ends s.drop = .ok r := done
    exact nodeUnless_node (leaves_drop tokens).tokens starts others read

theorem node_key {key : Text} {k : NodeId} (tokens : s.tokens = .scalar false key :: more)
    (done : node place fuel s = .ok (k, t)) :
    Leaves s t more ∧ s.graph.size ≤ k ∧ IsKeyNode t.graph k key := by
  cases fuel with
  | zero => cases done
  | succ fuel =>
    have left := leaves_scalar tokens done
    rw [node_scalar tokens] at done
    obtain ⟨rfl, rfl⟩ := Prod.mk.inj (Except.ok.inj done)
    refine ⟨left, Nat.le_refl _, ?_, ?_⟩
    · exact Nat.lt_of_lt_of_eq (Nat.lt_succ_self _) (Graph.size_add _ _).symm
    · exact Graph.node_add _ _

/-- A member has a marked key, and its value is read behind it. -/
theorem flowMember_marked {key : Text} {read members : Members} (value : IsItem ts)
    (tokens : s.tokens = .key :: .scalar false key :: .value :: (ts ++ more))
    (done : flowMember fuel read s = .ok (members, t)) :
    ∃ fuel' k s₁ v s₂, Leaves s s₁ (ts ++ more) ∧ s.graph.size ≤ k ∧ IsKeyNode s₁.graph k key ∧
      node .flow fuel' s₁ = .ok (v, s₂) ∧ ∃ fuel'',
        flowMembers fuel'' false ((k, v) :: read) s₂ = .ok (members, t) := by
  obtain ⟨token, r, rfl, starts⟩ := value.starts
  cases fuel with
  | zero => cases done
  | succ fuel =>
    rw [flowMember, next_of_tokens tokens (by simp)] at done
    have parts : (nodeUnless .flow fuel [.value, .flowEntry, .flowMappingEnd] s.drop >>= fun r =>
        valueUnless .flow fuel [.flowEntry, .flowMappingEnd] r.2 >>= fun q =>
          flowMembers fuel false ((r.1, q.1) :: read) q.2) = .ok (members, t) := done
    obtain ⟨⟨k, s₀⟩, hkey, parts⟩ := Except.bind_eq_ok.mp parts
    obtain ⟨⟨v, s₂⟩, hvalue, behind⟩ := Except.bind_eq_ok.mp parts
    have dropped := leaves_drop tokens
    obtain ⟨_, hkey⟩ := nodeUnless_node dropped.tokens (.scalar false key) (by simp) hkey
    obtain ⟨left, new, node⟩ := node_key dropped.tokens hkey
    obtain ⟨fuel', hvalue⟩ := valueUnless_node left.tokens starts (by cases starts <;> simp) hvalue
    have passed := (dropped.trans left).trans (leaves_drop left.tokens)
    exact ⟨fuel', k, s₀.drop, v, s₂, passed, new, node, hvalue, fuel, behind⟩

/-- Without a mark, the colon behind a key is refused. -/
theorem flowMember_bare {key : Text} {read members : Members}
    (tokens : s.tokens = .scalar false key :: .value :: more) :
    flowMember fuel read s ≠ .ok (members, t) := by
  intro done
  cases fuel with
  | zero => cases done
  | succ fuel =>
    rw [flowMember, next_of_tokens tokens (by simp)] at done
    have parts : (node .flow fuel s >>= fun r =>
        flowMembers fuel false ((r.1, r.2.addEmpty.1) :: read) r.2.addEmpty.2) =
          .ok (members, t) := done
    obtain ⟨⟨k, s₀⟩, hkey, behind⟩ := Except.bind_eq_ok.mp parts
    obtain ⟨left, -, -⟩ := node_key tokens hkey
    have colon : s₀.addEmpty.2.tokens = .value :: more := left.tokens
    cases fuel with
    | zero => cases hkey
    | succ fuel =>
      dsimp only at behind
      rw [flowMembers, next_of_tokens colon (by simp)] at behind
      cases behind

/-! ## Values -/

/-- A member of a mapping is under the node of its key, which is new. -/
def IsMemberOf (g h : Graph) (m : NodeId × NodeId) (key : Text) : Prop :=
  g.size ≤ m.1 ∧ IsKeyNode h m.1 key

mutual

/-- The node of a value in brackets is made of its tokens. -/
theorem node_item {s t : Composer} {place : Place} {fuel : Nat} {id : NodeId}
    {ts more : List Token} : IsItem ts → s.tokens = ts ++ more →
      node place fuel s = .ok (id, t) → Leaves s t more
  | .scalar plain text, tokens, done => by
    cases fuel with
    | zero => cases done
    | succ fuel => exact leaves_scalar tokens done
  | .emptyList, tokens, done => by
    obtain ⟨s', items, t', _, here, read, leaves⟩ := node_sequence_cases tokens done
    exact leaves _ (flowItems_end here read).1
  | .list items, tokens, done => by
    obtain ⟨s', xs, t', _, here, read, leaves⟩ := node_sequence_cases tokens done
    obtain ⟨_, read⟩ := flowItems_first items here read
    exact leaves _ (flowItem_items items here read).1
  | .emptyMap, tokens, done => by
    obtain ⟨s', ms, t', _, here, read, leaves⟩ := node_mapping_cases tokens done
    exact leaves _ (flowMembers_end here read).1
  | .map members, tokens, done => by
    obtain ⟨s', ms, t', _, here, read, leaves⟩ := node_mapping_cases tokens done
    obtain ⟨_, read⟩ := flowMembers_first members here read
    exact leaves _ (flowMember_members members here read).1

/-- The items of a list in brackets, of which there is one at least, are made of their tokens. -/
theorem flowItem_items {s t : Composer} {fuel : Nat} {read items : List NodeId}
    {ts more : List Token} : IsItems ts → s.tokens = ts ++ more →
      flowItem fuel read s = .ok (items, t) → Leaves s t more ∧ read.length < items.length
  | .last item, tokens, done => by
    rw [List.append_assoc] at tokens
    obtain ⟨_, n, s', hnode, _, behind⟩ := flowItem_item item tokens done
    have left := node_item item tokens hnode
    obtain ⟨ended, rfl⟩ := flowItems_end left.tokens behind
    exact ⟨left.trans ended, by simp⟩
  | .more item others, tokens, done => by
    rw [List.append_assoc] at tokens
    obtain ⟨_, n, s', hnode, _, behind⟩ := flowItem_item item tokens done
    have left := node_item item tokens hnode
    have dropped := left.trans (leaves_drop left.tokens)
    obtain ⟨_, behind⟩ := flowItems_entry left.tokens behind
    obtain ⟨ended, longer⟩ := flowItem_items others dropped.tokens behind
    exact ⟨dropped.trans ended, Nat.lt_of_succ_lt longer⟩

/-- The members of a mapping in braces are made of their tokens. -/
theorem flowMember_members {s t : Composer} {fuel : Nat} {read members : Members} {keys : List Text}
    {ts more : List Token} : IsMembers keys ts → s.tokens = ts ++ more →
      flowMember fuel read s = .ok (members, t) →
      Leaves s t more ∧ ∃ new, members = read.reverse ++ new ∧
        List.Forall₂ (IsMemberOf s.graph t.graph) new keys
  | .last (.marked key) value, tokens, done => by
    obtain ⟨_, k, s₁, v, s₂, left, new, node, hvalue, _, behind⟩ :=
      flowMember_marked value (by simpa using tokens) done
    have valued := node_item value left.tokens hvalue
    obtain ⟨ended, rfl⟩ := flowMembers_end valued.tokens behind
    refine ⟨(left.trans valued).trans ended, [(k, v)], by simp, ?_⟩
    exact .cons ⟨new, node.extends (valued.trans ended).graph⟩ .nil
  | .more (.marked key) value others, tokens, done => by
    obtain ⟨_, k, s₁, v, s₂, left, fresh, node, hvalue, _, behind⟩ :=
      flowMember_marked value (by simpa using tokens) done
    have valued := node_item value left.tokens hvalue
    have here := valued.trans (leaves_drop valued.tokens)
    obtain ⟨_, behind⟩ := flowMembers_entry valued.tokens behind
    obtain ⟨ended, new, rfl, nodes⟩ := flowMember_members others here.tokens behind
    have grown := (left.trans here).graph
    refine ⟨(left.trans here).trans ended, (k, v) :: new, by simp, .cons ⟨fresh, ?_⟩ ?_⟩
    · exact node.extends (here.trans ended).graph
    · exact nodes.imp fun _ _ of => ⟨Nat.le_trans grown.size of.1, of.2⟩
  | .last (.bare key) value, tokens, done => by
    exact absurd done (flowMember_bare (by simpa using tokens))
  | .more (.bare key) value others, tokens, done => by
    exact absurd done (flowMember_bare (by simpa using tokens))

end

/-! ## Roots -/

/-- The node is a mapping, and its keys are these texts. -/
structure HasKeys (g : Graph) (root : NodeId) (keys : List Text) : Prop where
  old : root < g.size
  tag : g.tag root = Tag.map
  members : ∃ ms, g.content root = .mapping ms ∧
    List.Forall₂ (fun m key => IsKeyNode g m.1 key) ms keys

theorem Fills.old {s' t' : Composer} {tag : String} {start parts : Content}
    (h : Fills s s' t t' id tag start parts) : id < s'.graph.size := by
  have size : s'.graph.size = id + 1 := by rw [h.added, Graph.size_add, h.number]
  exact size ▸ Nat.lt_succ_self _

/-- The node of a collection, filled behind its parts. -/
theorem Fills.root {s' t' : Composer} {tag : String} {start parts : Content}
    (h : Fills s s' t t' id tag start parts) (grown : s'.graph.Extends t'.graph) :
    id < t.graph.size ∧ t.graph.node id = ⟨tag, parts⟩ := by
  have old := h.old
  have there := Nat.lt_of_lt_of_le old grown.size
  have begun : s'.graph.node id = ⟨tag, start⟩ := by
    rw [h.added, h.number]
    exact Graph.node_add _ _
  constructor
  · rwa [h.filled, Graph.size_fill]
  · rw [h.filled, Graph.fill, Graph.node_change _ there, grown.node id old, begun]

/-- The node of a mapping is filled when those of its keys are there, and so it leaves them as they
are. -/
theorem Fills.keys {s' t' : Composer} {ms : Members} {keys : List Text}
    (h : Fills s s' t t' id Tag.map (.mapping []) (.mapping ms))
    (grown : s'.graph.Extends t'.graph)
    (nodes : List.Forall₂ (IsMemberOf s'.graph t'.graph) ms keys) : HasKeys t.graph id keys := by
  obtain ⟨there, root⟩ := h.root grown
  refine ⟨there, congrArg Node.tag root, ms, congrArg Node.content root, nodes.imp ?_⟩
  rintro m key ⟨new, here, node⟩
  have other : m.1 ≠ id := Nat.ne_of_gt (Nat.lt_of_lt_of_le h.old new)
  refine ⟨by rwa [h.filled, Graph.size_fill], ?_⟩
  rw [h.filled, Graph.fill, Graph.node_change_of_ne _ other, node]

/-- The root of a document is the node of its tokens. -/
theorem nodesOfTokens_cases {levels : Nat} {token : Token} {r : Option (NodeId × Graph)}
    (starts : StartsItem token) (done : nodesOfTokens levels (token :: ts) = .ok r) :
    ∃ fuel s id t, s.tokens = token :: ts ∧ node .block fuel s = .ok (id, t) ∧
      r = some (id, t.graph) := by
  have content_ : (content levels defaultHandles (token :: ts) >>= fun q =>
      Except.ok (some q)) = .ok r := by cases starts <;> exact done
  obtain ⟨⟨root, g⟩, hcontent, same⟩ := Except.bind_eq_ok.mp content_
  obtain ⟨⟨id, t⟩, hnode, last⟩ := Except.bind_eq_ok.mp hcontent
  obtain ⟨-, -, same'⟩ := Except.bind_eq_ok.mp last
  obtain ⟨rfl, rfl⟩ := Prod.mk.inj (Except.ok.inj same')
  exact ⟨_, _, id, t, rfl, hnode, (Except.ok.inj same).symm⟩

variable {levels : Nat} {r : Option (NodeId × Graph)}

/-- The root of a mapping in braces. -/
theorem nodesOfTokens_members {keys : List Text} (members : IsMembers keys ts)
    (done : nodesOfTokens levels (.flowMappingStart :: ts ++ more) = .ok r) :
    ∃ root g, r = some (root, g) ∧ HasKeys g root keys := by
  obtain ⟨fuel, s, id, t, tokens, hnode, rfl⟩ := nodesOfTokens_cases .map done
  refine ⟨id, t.graph, rfl, ?_⟩
  cases fuel with
  | zero => cases hnode
  | succ fuel =>
    rw [node_mapping tokens] at hnode
    obtain ⟨s', ms, t', read, fills⟩ := addMapping_cases hnode
    have here := fills.before.trans (leaves_drop tokens).tokens
    obtain ⟨_, read⟩ := flowMembers_first members here read
    obtain ⟨left, new, rfl, nodes⟩ := flowMember_members members here read
    exact fills.keys left.graph nodes

/-- The node is a list, and it has items. -/
structure HasItems (g : Graph) (root : NodeId) : Prop where
  old : root < g.size
  tag : g.tag root = Tag.seq
  items : ∃ xs, g.content root = .sequence xs ∧ xs ≠ []

/-- The root of a list in brackets. -/
theorem nodesOfTokens_items (items : IsItems ts)
    (done : nodesOfTokens levels (.flowSequenceStart :: ts ++ more) = .ok r) :
    ∃ root g, r = some (root, g) ∧ HasItems g root := by
  obtain ⟨fuel, s, id, t, tokens, hnode, rfl⟩ := nodesOfTokens_cases .list done
  refine ⟨id, t.graph, rfl, ?_⟩
  cases fuel with
  | zero => cases hnode
  | succ fuel =>
    rw [node_sequence tokens] at hnode
    obtain ⟨s', xs, t', read, fills⟩ := addSequence_cases hnode
    have here := fills.before.trans (leaves_drop tokens).tokens
    obtain ⟨_, read⟩ := flowItems_first items here read
    obtain ⟨left, full⟩ := flowItem_items items here read
    obtain ⟨old, root⟩ := fills.root left.graph
    exact ⟨old, congrArg Node.tag root, xs, congrArg Node.content root,
      List.ne_nil_of_length_pos full⟩

end FieldProgram.Yaml

import FieldProgram.Proofs.Outcome
import FieldProgram.Proofs.Yaml.Nodes
import FieldProgram.Yaml.Value.OfNodes

/-!
# Members of mappings

The value of a mapping of which all keys are texts has a member under each of them. Such a mapping
asks for no other to be merged into it, and once it is filled, no later step changes it. So it is
with a list and its items.

* `merge_of_hasKeys`: merging leaves a mapping under texts as it is;
* `makeMembers_hasKeys`: the members made of it are under these texts;
* `fillAll_filled`: the steps behind leave its collection as it is;
* `Graph.value_keys`: the value has a member under each of the texts;
* `Graph.value_items`: the value of a list with items is a list, and not vacant.
-/

namespace FieldProgram.Yaml

variable {α β : Type} {room : Room} {m m' : Maker} {id root : NodeId}

/-! ## Steps one by one -/

theorem Making.get_bind (next : Maker → Making β) : ((get : Making Maker) >>= next) m = next m m :=
  rfl

theorem Making.set_bind (next : PUnit → Making β) :
    ((set m' : Making PUnit) >>= next) m = next ⟨⟩ m' :=
  rfl

theorem Making.modify_bind (f : Maker → Maker) (next : PUnit → Making β) :
    ((modify f : Making PUnit) >>= next) m = next ⟨⟩ (f m) :=
  rfl

theorem Making.bind_eq_ok {x : Making α} {next : α → Making β} {b : β} :
    (x >>= next) m = .ok (b, m') ↔ ∃ a m₁, x m = .ok (a, m₁) ∧ next a m₁ = .ok (b, m') := by
  constructor
  · intro done
    obtain ⟨⟨a, m₁⟩, first, behind⟩ := Except.bind_eq_ok.mp done
    exact ⟨a, m₁, first, behind⟩
  · rintro ⟨a, m₁, first, behind⟩
    exact Except.bind_eq_ok.mpr ⟨(a, m₁), first, behind⟩

theorem Making.pure_eq_ok {a b : α} : (pure a : Making α) m = .ok (b, m') ↔ a = b ∧ m = m' := by
  constructor
  · intro done
    exact Prod.mk.inj (Except.ok.inj done)
  · rintro ⟨rfl, rfl⟩
    rfl

/-- A step that looks at nodes only. -/
theorem Making.lift_eq_ok {r : Result α} {a : α} :
    (liftM r : Making α) m = .ok (a, m') ↔ r = .ok a ∧ m = m' := by
  constructor
  · intro done
    obtain ⟨b, hb, same⟩ := Except.bind_eq_ok.mp done
    obtain ⟨rfl, rfl⟩ := Prod.mk.inj (Except.ok.inj same)
    exact ⟨hb, rfl⟩
  · rintro ⟨rfl, rfl⟩
    rfl

/-- How a node gets its value: it has one, or it is a collection or an atom by its tag. -/
inductive Makes (room : Room) (m : Maker) (id : NodeId) : Part → Maker → Prop
  | known {p : Part} (made : m.made[id]?.join = some p) : Makes room m id p m
  | collection {c : Collection} (unmade : m.made[id]?.join = none)
    (empty : emptyCollection? (m.graph.tag id) = some c) : Makes room m id (.collection id)
      { (m.put id c).keep id (.collection id) with waiting := id :: m.waiting }
  | atom {a : Atom} (unmade : m.made[id]?.join = none)
    (plain : emptyCollection? (m.graph.tag id) = none)
    (atom : atomOf m.graph room.texts id = .ok a) : Makes room m id (.atom a) (m.keep id (.atom a))

theorem makes_of_make {p : Part} (done : make room id m = .ok (p, m')) : Makes room m id p m' := by
  rw [make, Making.get_bind] at done
  cases made : m.made[id]?.join with
  | some q =>
    rw [made] at done
    obtain ⟨rfl, rfl⟩ := Making.pure_eq_ok.mp done
    exact .known made
  | none =>
    rw [made] at done
    cases empty : emptyCollection? (m.graph.tag id) with
    | some c =>
      simp only [empty, Making.set_bind] at done
      obtain ⟨rfl, rfl⟩ := Making.pure_eq_ok.mp done
      exact .collection made empty
    | none =>
      simp only [empty] at done
      obtain ⟨a, _, lifted, kept⟩ := Making.bind_eq_ok.mp done
      obtain ⟨atom, rfl⟩ := Making.lift_eq_ok.mp lifted
      rw [Making.set_bind] at kept
      obtain ⟨rfl, rfl⟩ := Making.pure_eq_ok.mp kept
      exact .atom made empty atom

/-- Makes a member of a mapping and puts it with those made before. -/
def addMember (room : Room) (g : Graph) (members : List KeyedMember) (r : NodeId × NodeId) :
    Making (List KeyedMember) := do
  let key ← makeKey room r.1
  let value ← make room r.2
  return putMember (key.sameness (sourceOf g room.texts r.1), key, value) members

/-- How the members of a mapping are made. -/
structure MakesMembers (room : Room) (m : Maker) (id : NodeId) (g : Graph) (rs : List KeyedMember)
    (m' : Maker) : Prop where
  merged : merge room.merges id m.graph = .ok g
  made : (g.members id).foldlM (addMember room g) [] { m with graph := g } = .ok (rs, m')

theorem makesMembers_of_makeMembers {members : List (Atom × Part)}
    (done : makeMembers room id m = .ok (members, m')) :
    ∃ g rs, MakesMembers room m id g rs m' ∧ members = rs.map Prod.snd := by
  rw [makeMembers, Making.get_bind] at done
  cases content : m.graph.content id with
  | mapping ms =>
    rw [content] at done
    obtain ⟨g, _, lifted, done⟩ := Making.bind_eq_ok.mp done
    obtain ⟨merged, rfl⟩ := Making.lift_eq_ok.mp lifted
    rw [Making.set_bind] at done
    obtain ⟨rs, m₁, made, done⟩ := Making.bind_eq_ok.mp done
    obtain ⟨rfl, rfl⟩ := Making.pure_eq_ok.mp done
    exact ⟨g, rs, ⟨merged, made⟩, rfl⟩
  | scalar t =>
    rw [content] at done
    cases done
  | sequence items =>
    rw [content] at done
    cases done

/-! ## Merging -/

theorem takeMerge?_of_textKeys {g : Graph} {ms : Members} {keys : List Text}
    (nodes : List.Forall₂ (fun m key => IsKeyNode g m.1 key) ms keys) : takeMerge? g ms = none := by
  induction nodes with
  | nil => rfl
  | @cons m key _ _ node _ ih =>
    have tag : g.tag m.1 = Tag.str := congrArg Node.tag node.2
    rw [takeMerge?, tag, if_neg (by decide), ih]
    rfl

namespace Graph

variable {g : Graph}

theorem change_eq_self {f : Node → Node} (old : id < g.size) (same : f (g.node id) = g.node id) :
    g.change id f = g := by
  rw [size] at old
  have there : g.node id = g.nodes[id] := by simp [node, old]
  rw [there] at same
  rw [change]
  congr 1
  refine Array.ext (Array.size_modify ..) fun i _ _ => ?_
  rw [Array.getElem_modify]
  split
  · rename_i here
    subst here
    exact same
  · rfl

/-- A text as a key is no equals sign that is to become one. -/
theorem plainKey_of_keyNode {key : NodeId} {t : Text} (node : IsKeyNode g key t) :
    g.plainKey key = g := by
  refine change_eq_self node.1 ?_
  rw [node.2]
  exact if_neg (show Tag.str ≠ Tag.value by decide)

theorem settle_of_textKeys {ms : Members} {keys : List Text} (old : id < g.size)
    (content : g.content id = .mapping ms)
    (nodes : List.Forall₂ (fun m key => IsKeyNode g m.1 key) ms keys) : g.settle id ms = g := by
  have filled : g.fill id (.mapping ms) = g := by
    refine change_eq_self old ?_
    rw [← content]
    rfl
  rw [settle, filled]
  clear content filled
  induction nodes with
  | nil => rfl
  | cons node _ ih =>
    rw [List.foldl_cons, plainKey_of_keyNode node]
    exact ih

end Graph

/-- A mapping under texts asks for no other. -/
theorem merge_of_hasKeys {g : Graph} {keys : List Text} (levels : Nat) (h : HasKeys g root keys) :
    merge levels root g = .ok g := by
  obtain ⟨ms, content, nodes⟩ := h.members
  have members : g.members root = ms := by rw [Graph.members, content]
  rw [merge, mergeFrom, members, takeMerge?_of_textKeys nodes]
  exact congrArg Except.ok (Graph.settle_of_textKeys h.old content nodes)

/-! ## Texts -/

theorem eq_of_textOf {g : Graph} {levels : Nat} {t u : Text} (content : g.content id = .scalar t)
    (done : textOf g levels id = .ok u) : u = t := by
  cases levels with
  | zero => cases done
  | succ levels =>
    rw [textOf, content] at done
    exact (Except.ok.inj done).symm

theorem eq_of_atomOf {g : Graph} {levels : Nat} {t : Text} {a : Atom}
    (node : g.node id = ⟨Tag.str, .scalar t⟩) (done : atomOf g levels id = .ok a) : a = .str t := by
  rw [atomOf, show g.tag id = Tag.str from congrArg Node.tag node] at done
  obtain ⟨u, text, same⟩ := Except.bind_eq_ok.mp done
  obtain rfl := eq_of_textOf (congrArg Node.content node) text
  exact (Except.ok.inj same).symm

theorem made_keep {other : NodeId} {p q : Part} (made : (m.keep id p).made[other]?.join = some q) :
    other = id ∧ q = p ∨ m.made[other]?.join = some q := by
  rw [Maker.keep] at made
  by_cases same : other = id
  · subst same
    refine .inl ⟨rfl, ?_⟩
    by_cases old : other < m.made.size
    · simpa [old, eq_comm] using made
    · simp [old] at made
  · exact .inr (by simpa [Ne.symm same] using made)

/-- Nodes that are texts are made to these texts. -/
def TextsMade (m : Maker) : Prop :=
  ∀ id t p, m.graph.node id = ⟨Tag.str, .scalar t⟩ → m.made[id]?.join = some p → p = .atom (.str t)

theorem Makes.graph {p : Part} (h : Makes room m id p m') : m'.graph = m.graph := by
  cases h <;> rfl

theorem Makes.text {p : Part} {t : Text} (h : Makes room m id p m') (texts : TextsMade m)
    (node : m.graph.node id = ⟨Tag.str, .scalar t⟩) : p = .atom (.str t) := by
  have tag : m.graph.tag id = Tag.str := congrArg Node.tag node
  cases h with
  | known made => exact texts _ _ _ node made
  | collection unmade empty =>
    rw [tag] at empty
    cases empty
  | atom unmade plain atom =>
    rw [eq_of_atomOf node atom]

theorem Makes.texts {p : Part} (h : Makes room m id p m') (texts : TextsMade m) : TextsMade m' := by
  intro other t q node made
  rw [h.graph] at node
  have there : other = id ∧ q = p ∨ m.made[other]?.join = some q := by
    cases h with
    | known _ => exact .inr made
    | collection => exact made_keep made
    | atom => exact made_keep made
  rcases there with ⟨rfl, rfl⟩ | made
  · exact h.text texts node
  · exact texts _ _ _ node made

/-! ## Members under texts -/

/-- The members are told apart by their keys alone. -/
def ByKeys (rs : List KeyedMember) : Prop := ∀ r ∈ rs, r.1 = .itself r.2.1

theorem ByKeys.putMember {rs : List KeyedMember} (h : ByKeys rs) (a : Atom) (p : Part) :
    ByKeys (putMember (.itself a, a, p) rs) ∧
      ∀ b, b ∈ (putMember (.itself a, a, p) rs).map (·.2.1) ↔ b = a ∨ b ∈ rs.map (·.2.1) := by
  induction rs with
  | nil => simp [ByKeys, Yaml.putMember]
  | cons r rs ih =>
    obtain ⟨first, others⟩ := List.forall_mem_cons.mp h
    obtain ⟨keyed, keys⟩ := ih others
    rw [Yaml.putMember]
    split
    · rename_i same
      have key : r.2.1 = a := Atom.Sameness.itself.inj (first.symm.trans same)
      refine ⟨List.forall_mem_cons.mpr ⟨first, others⟩, fun b => ?_⟩
      simp [key]
    · refine ⟨List.forall_mem_cons.mpr ⟨first, keyed⟩, fun b => ?_⟩
      rw [List.map_cons, List.mem_cons, keys, List.map_cons, List.mem_cons]
      exact or_left_comm

theorem addMember_text {rs rs' : List KeyedMember} {r : NodeId × NodeId} {g : Graph} {key : Text}
    (node : m.graph.node r.1 = ⟨Tag.str, .scalar key⟩) (texts : TextsMade m)
    (done : addMember room g rs r m = .ok (rs', m')) :
    m'.graph = m.graph ∧ TextsMade m' ∧
      ∃ p, rs' = putMember (.itself (.str key), .str key, p) rs := by
  obtain ⟨a, m₁, named, done⟩ := Making.bind_eq_ok.mp done
  obtain ⟨p, m₂, valued, done⟩ := Making.bind_eq_ok.mp done
  obtain ⟨rfl, rfl⟩ := Making.pure_eq_ok.mp done
  obtain ⟨q, m₀, made, named⟩ := Making.bind_eq_ok.mp named
  have key_made := makes_of_make made
  have value_made := makes_of_make valued
  obtain rfl := key_made.text texts node
  obtain ⟨rfl, rfl⟩ := Making.pure_eq_ok.mp named
  exact ⟨value_made.graph.trans key_made.graph, value_made.texts (key_made.texts texts), p, rfl⟩

theorem addMembers_texts {rs rs' : List KeyedMember} {ms : Members} {g : Graph} {keys : List Text}
    (nodes : List.Forall₂ (fun r key => IsKeyNode g r.1 key) ms keys) (graph : m.graph = g)
    (texts : TextsMade m) (keyed : ByKeys rs)
    (done : ms.foldlM (addMember room g) rs m = .ok (rs', m')) (b : Atom) :
    b ∈ rs'.map (·.2.1) ↔ b ∈ rs.map (·.2.1) ∨ ∃ key ∈ keys, b = .str key := by
  induction nodes generalizing m rs with
  | nil =>
    obtain ⟨rfl, rfl⟩ := Making.pure_eq_ok.mp done
    simp
  | @cons r key ms keys node _ ih =>
    rw [List.foldlM_cons] at done
    obtain ⟨rs₁, m₁, first, done⟩ := Making.bind_eq_ok.mp done
    obtain ⟨graph₁, texts₁, p, rfl⟩ := addMember_text (graph ▸ node.2) texts first
    obtain ⟨keyed₁, put⟩ := keyed.putMember (.str key) p
    rw [ih (graph₁.trans graph) texts₁ keyed₁ done, put, List.exists_mem_cons_iff, or_assoc,
      or_left_comm]

/-- The members made of a mapping under texts are under these texts. -/
theorem makeMembers_hasKeys {keys : List Text} {members : List (Atom × Part)}
    (h : HasKeys m.graph root keys) (texts : TextsMade m)
    (done : makeMembers room root m = .ok (members, m')) (b : Atom) :
    b ∈ members.map Prod.fst ↔ ∃ key ∈ keys, b = .str key := by
  obtain ⟨g, rs, makes, rfl⟩ := makesMembers_of_makeMembers done
  obtain rfl := Except.ok.inj ((merge_of_hasKeys _ h).symm.trans makes.merged)
  obtain ⟨ms, content, nodes⟩ := h.members
  have made := makes.made
  rw [Graph.members, content] at made
  have keyed : ByKeys [] := by rintro r ⟨⟩
  simpa using addMembers_texts nodes rfl texts keyed made b

/-! ## Collections that are filled -/

/-- The node has been made, does not wait, and has this collection. -/
structure Filled (root : NodeId) (c : Collection) (m : Maker) : Prop where
  made : ∃ p, m.made[root]?.join = some p
  still : root ∉ m.waiting
  collection : m.collections[root]? = some c

/-- Where the step succeeds, it leaves what is filled. -/
def Leaving (x : Making α) : Prop :=
  ∀ ⦃root c m a m'⦄, Filled root c m → x m = .ok (a, m') → Filled root c m'

namespace Leaving

variable {x : Making α}

theorem pure (a : α) : Leaving (pure a : Making α) := by
  intro root c m b m' filled done
  obtain ⟨rfl, rfl⟩ := Making.pure_eq_ok.mp done
  exact filled

theorem get : Leaving (get : Making Maker) := by
  intro root c m b m' filled done
  obtain ⟨rfl, rfl⟩ := Prod.mk.inj (Except.ok.inj done)
  exact filled

theorem lift (r : Result α) : Leaving (liftM r : Making α) := by
  intro root c m b m' filled done
  obtain ⟨-, rfl⟩ := Making.lift_eq_ok.mp done
  exact filled

theorem bind {next : α → Making β} (hx : Leaving x) (hn : ∀ a, Leaving (next a)) :
    Leaving (x >>= next) := by
  intro root c m b m' filled done
  obtain ⟨a, m₁, first, behind⟩ := Making.bind_eq_ok.mp done
  exact hn a (hx filled first) behind

theorem mapM {f : β → Making α} (h : ∀ b, Leaving (f b)) (bs : List β) : Leaving (bs.mapM f) := by
  induction bs with
  | nil => exact .pure _
  | cons b bs ih =>
    rw [List.mapM_cons]
    exact (h b).bind fun _ => ih.bind fun _ => .pure _

theorem foldlM {f : α → β → Making α} (h : ∀ a b, Leaving (f a b)) (a : α) (bs : List β) :
    Leaving (bs.foldlM f a) := by
  induction bs generalizing a with
  | nil => exact .pure _
  | cons b bs ih =>
    rw [List.foldlM_cons]
    exact (h a b).bind fun _ => ih _

end Leaving

theorem Makes.filled {c : Collection} {p : Part} (h : Makes room m id p m')
    (filled : Filled root c m) : Filled root c m' := by
  obtain ⟨⟨q, made⟩, still, collection⟩ := filled
  have other (unmade : m.made[id]?.join = none) : id ≠ root := by
    rintro rfl
    rw [made] at unmade
    cases unmade
  have kept (p : Part) (unmade : m.made[id]?.join = none) :
      ∃ q, (m.keep id p).made[root]?.join = some q :=
    ⟨q, by simpa [Maker.keep, other unmade] using made⟩
  cases h with
  | known _ => exact ⟨⟨q, made⟩, still, collection⟩
  | @collection c unmade =>
    refine ⟨kept _ unmade, List.not_mem_cons_of_ne_of_not_mem (other unmade).symm still, ?_⟩
    simpa [Maker.keep, Maker.put, other unmade] using collection
  | atom unmade => exact ⟨kept _ unmade, still, collection⟩

theorem leaving_make (id : NodeId) : Leaving (make room id) :=
  fun _ _ _ _ _ filled done => (makes_of_make done).filled filled

theorem leaving_makeKey (id : NodeId) : Leaving (makeKey room id) := by
  refine (leaving_make id).bind fun p => ?_
  cases p with
  | atom a => exact .pure a
  | collection _ => exact .lift _

theorem leaving_addMember (g : Graph) (rs : List KeyedMember) (r : NodeId × NodeId) :
    Leaving (addMember room g rs r) :=
  (leaving_makeKey r.1).bind fun _ => (leaving_make r.2).bind fun _ => .pure _

theorem leaving_makeMembers (id : NodeId) : Leaving (makeMembers room id) := by
  intro root c m members m' filled done
  obtain ⟨g, rs, makes, -⟩ := makesMembers_of_makeMembers done
  have settled : Filled root c { m with graph := g } :=
    ⟨filled.made, filled.still, filled.collection⟩
  exact Leaving.foldlM (leaving_addMember g) [] _ settled makes.made

theorem leaving_makePair (tag : String) (id : NodeId) : Leaving (makePair room tag id) := by
  refine Leaving.get.bind fun m => ?_
  split
  · exact (leaving_make _).bind fun _ => (leaving_make _).bind fun _ => .pure _
  · exact .lift _

theorem leaving_makeCollection (id : NodeId) : Leaving (makeCollection room id) := by
  refine Leaving.get.bind fun m => ?_
  dsimp only
  split
  · exact (leaving_makeMembers id).bind fun _ => .pure _
  · split
    · exact (leaving_makeMembers id).bind fun _ => .pure _
    · split
      · split
        · exact (Leaving.mapM leaving_make _).bind fun _ => .pure _
        · exact (Leaving.mapM (leaving_makePair _) _).bind fun _ => .pure _
      · exact .lift _

/-- The steps behind leave a collection as it is. -/
theorem fillAll_filled {c : Collection} {fuel : Nat} {turn : List NodeId} {u : Unit}
    (filled : Filled root c m) (others : root ∉ turn)
    (done : fillAll room fuel turn m = .ok (u, m')) : Filled root c m' := by
  induction fuel generalizing turn m with
  | zero =>
    obtain ⟨-, rfl⟩ := Making.pure_eq_ok.mp done
    exact filled
  | succ fuel ih =>
    cases turn with
    | nil =>
      rw [fillAll, Making.get_bind, ite_apply] at done
      split at done
      · obtain ⟨-, rfl⟩ := Making.pure_eq_ok.mp done
        exact filled
      · rw [Making.set_bind] at done
        have here : Filled root c { m with waiting := [] } :=
          ⟨filled.made, List.not_mem_nil, filled.collection⟩
        exact ih here (mt List.mem_reverse.mp filled.still) done
    | cons id turn =>
      obtain ⟨d, m₁, made, done⟩ := Making.bind_eq_ok.mp done
      rw [Making.modify_bind] at done
      have other : id ≠ root := (List.ne_of_not_mem_cons others).symm
      have left := leaving_makeCollection id filled made
      have here : Filled root c (m₁.put id d) :=
        ⟨left.made, left.still, by simpa [Maker.put, other] using left.collection⟩
      exact ih here (List.not_mem_of_not_mem_cons others) done

/-! ## The value of a collection -/

/-- A collection is made before its parts, and waits to be filled with them. -/
structure Waits (g : Graph) (root : NodeId) (start : Collection) (m : Maker) : Prop where
  graph : m.graph = g
  texts : TextsMade m
  waiting : m.waiting = [root]
  taken : Filled root start { m with waiting := [] }

theorem make_start {g : Graph} {p : Part} {start : Collection} (old : root < g.size)
    (empty : emptyCollection? (g.tag root) = some start)
    (done : make room root (.start g) = .ok (p, m)) :
    p = .collection root ∧ Waits g root start m := by
  have unmade (id : NodeId) : (Maker.start g).made[id]?.join = none := by
    by_cases old : id < g.size <;> simp [Maker.start, old]
  have makes := makes_of_make done
  have texts : TextsMade m := makes.texts fun id t q _ made => by cases (unmade id).symm.trans made
  cases makes with
  | known made => cases (unmade root).symm.trans made
  | @collection c _ empty' =>
    obtain rfl := Option.some.inj (empty.symm.trans empty')
    refine ⟨rfl, rfl, texts, rfl, ⟨.collection root, ?_⟩, List.not_mem_nil, ?_⟩
    · simp [Maker.start, Maker.keep, Maker.put, old]
    · simp [Maker.start, Maker.keep, Maker.put, old]
  | atom _ plain _ => cases empty.symm.trans plain

/-- The only collection that waits is filled first. -/
theorem fillAll_first {fuel : Nat} {u : Unit} (waiting : m.waiting = [root])
    (done : fillAll room (fuel + 2) [] m = .ok (u, m')) :
    ∃ c m₁, makeCollection room root { m with waiting := [] } = .ok (c, m₁) ∧
      fillAll room fuel [] (m₁.put root c) = .ok (u, m') := by
  rw [fillAll, Making.get_bind, waiting, if_neg (by simp), Making.set_bind] at done
  obtain ⟨c, m₁, made, done⟩ := Making.bind_eq_ok.mp done
  rw [Making.modify_bind] at done
  exact ⟨c, m₁, made, done⟩

theorem Graph.value_eq_ok {g : Graph} {v : Value} (value : g.value room root = .ok v) :
    ∃ p m u m', make room root (.start g) = .ok (p, m) ∧
      fillAll room (2 * m.graph.size + 2) [] m = .ok (u, m') ∧ v = ⟨m'.collections, p⟩ := by
  obtain ⟨⟨p, m'⟩, all, same⟩ := Except.bind_eq_ok.mp value
  obtain ⟨q, m, first, others⟩ := Making.bind_eq_ok.mp all
  rw [Making.get_bind] at others
  obtain ⟨u, _, filling, done⟩ := Making.bind_eq_ok.mp others
  obtain ⟨rfl, rfl⟩ := Making.pure_eq_ok.mp done
  exact ⟨q, m, u, _, first, filling, (Except.ok.inj same).symm⟩

/-- The value of a collection is what is made of its node before all others. -/
theorem Graph.value_collection {g : Graph} {v : Value} {start : Collection} (old : root < g.size)
    (empty : emptyCollection? (g.tag root) = some start) (value : g.value room root = .ok v) :
    ∃ m c m₁, m.graph = g ∧ TextsMade m ∧ makeCollection room root m = .ok (c, m₁) ∧
      v.root = .collection root ∧ collectionOf v.collections root = c := by
  obtain ⟨p, m, u, m', first, filling, rfl⟩ := g.value_eq_ok value
  obtain ⟨rfl, waits⟩ := make_start old empty first
  obtain ⟨c, m₁, made, behind⟩ := fillAll_first waits.waiting filling
  have left := leaving_makeCollection root waits.taken made
  have filled : Filled root c (m₁.put root c) := by
    refine ⟨left.made, left.still, ?_⟩
    obtain ⟨old, -⟩ := Array.getElem?_eq_some_iff.mp left.collection
    simp [Maker.put, old]
  have last := (fillAll_filled filled List.not_mem_nil behind).collection
  refine ⟨{ m with waiting := [] }, c, m₁, waits.graph, waits.texts, made, rfl, ?_⟩
  rw [collectionOf, last]
  rfl

/-! ## The value of a mapping -/

theorem makeCollection_map {c : Collection} (tag : m.graph.tag root = Tag.map)
    (done : makeCollection room root m = .ok (c, m')) :
    ∃ members, makeMembers room root m = .ok (members, m') ∧ c = .map members := by
  rw [makeCollection, Making.get_bind, if_pos tag] at done
  obtain ⟨members, m₁, made, done⟩ := Making.bind_eq_ok.mp done
  obtain ⟨rfl, rfl⟩ := Making.pure_eq_ok.mp done
  exact ⟨members, made, rfl⟩

/-- The value of a mapping under texts has members under these texts and no others. -/
theorem Graph.value_keys {g : Graph} {keys : List Text} {v : Value} (h : HasKeys g root keys)
    (value : g.value room root = .ok v) :
    ∃ ms, Layered.layer v = .map ms ∧ ∀ l, l ∈ ms.map Prod.fst ↔ ∃ key ∈ keys, l = .text key := by
  obtain ⟨m, c, m₁, rfl, texts, made, here, there⟩ := g.value_collection h.old
    (by rw [h.tag]; rfl) value
  obtain ⟨members, collected, rfl⟩ := makeCollection_map h.tag made
  have named := makeMembers_hasKeys h texts collected
  refine ⟨members.map fun r => (r.1.label, { v with root := r.2 }), ?_, fun l => ?_⟩
  · simp only [Layered.layer, Value.outer, here, there]
  · have labels : (members.map fun r =>
        (r.1.label, ({ v with root := r.2 } : Value))).map Prod.fst =
        (members.map Prod.fst).map Atom.label := by simp
    rw [labels, List.mem_map]
    constructor
    · rintro ⟨a, member, rfl⟩
      obtain ⟨key, given, rfl⟩ := (named a).mp member
      exact ⟨key, given, rfl⟩
    · rintro ⟨key, given, rfl⟩
      exact ⟨.str key, (named _).mpr ⟨key, given, rfl⟩, rfl⟩

/-! ## The value of a list -/

theorem Making.length_of_mapM {f : β → Making α} {bs : List β} {as : List α}
    (done : bs.mapM f m = .ok (as, m')) : as.length = bs.length := by
  induction bs generalizing m as with
  | nil =>
    obtain ⟨rfl, -⟩ := Making.pure_eq_ok.mp done
    rfl
  | cons b bs ih =>
    rw [List.mapM_cons] at done
    obtain ⟨a, m₁, -, done⟩ := Making.bind_eq_ok.mp done
    obtain ⟨others, m₂, later, done⟩ := Making.bind_eq_ok.mp done
    obtain ⟨rfl, rfl⟩ := Making.pure_eq_ok.mp done
    exact congrArg Nat.succ (ih later)

theorem makeCollection_seq {c : Collection} {xs : List NodeId} (tag : m.graph.tag root = Tag.seq)
    (content : m.graph.content root = .sequence xs)
    (done : makeCollection room root m = .ok (c, m')) :
    ∃ items, items.length = xs.length ∧ c = .list items := by
  rw [makeCollection, Making.get_bind, tag, content, if_neg (by decide), if_neg (by decide)] at done
  dsimp only at done
  rw [if_pos rfl] at done
  obtain ⟨items, m₁, made, done⟩ := Making.bind_eq_ok.mp done
  obtain ⟨rfl, rfl⟩ := Making.pure_eq_ok.mp done
  exact ⟨items, Making.length_of_mapM made, rfl⟩

/-- The value of a list that has items is a list, and not a vacant one. -/
theorem Graph.value_items {g : Graph} {v : Value} (h : HasItems g root)
    (value : g.value room root = .ok v) :
    v.isVacant = false ∧ ∃ vs, Layered.layer v = .list vs := by
  obtain ⟨m, c, m₁, rfl, -, made, here, there⟩ := g.value_collection h.old
    (by rw [h.tag]; rfl) value
  obtain ⟨xs, content, full⟩ := h.items
  obtain ⟨items, long, rfl⟩ := makeCollection_seq h.tag content made
  constructor
  · rw [Value.isVacant, here]
    dsimp only
    rw [there, Collection.isVacant]
    cases items with
    | nil => exact absurd (List.length_eq_zero_iff.mp long.symm) full
    | cons item items => rfl
  · simp only [Layered.layer, Value.outer, here, there]
    exact ⟨_, rfl⟩

end FieldProgram.Yaml

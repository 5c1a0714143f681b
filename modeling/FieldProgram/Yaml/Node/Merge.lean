import FieldProgram.Yaml.Node.Basic

/-!
# Merged mappings

A mapping may ask for the members of other mappings under a merge key. Its own members count more
than theirs and so stand behind them, and of a list of mappings the earlier ones count more. A
mapping may be asked for while it is itself being merged, and then brings what it has at that time.
Every merge key is taken off before what it asks for is looked at, so merging ends. A mapping that
is asked for is merged inside the call for the one that asks, and only so many calls may be inside
each other.

`length_takeMerge` says that taking off a merge key leaves fewer members.
-/

namespace FieldProgram.Yaml

/-- Takes the first member under a merge key off: what it asks for, and the other members. -/
def takeMerge? (g : Graph) : Members → Option (NodeId × Members)
  | [] => none
  | (k, v) :: ms =>
    if g.tag k = Tag.merge then some (v, ms)
    else (takeMerge? g ms).map fun (source, others) => (source, (k, v) :: others)

theorem length_takeMerge {g : Graph} {ms others : Members} {source : NodeId}
    (h : takeMerge? g ms = some (source, others)) : others.length + 1 = ms.length := by
  induction ms generalizing others with
  | nil => simp [takeMerge?] at h
  | cons m ms ih =>
    obtain ⟨k, v⟩ := m
    rw [takeMerge?] at h
    split at h
    · simp_all
    · obtain ⟨⟨s, os⟩, hs, he⟩ := Option.map_eq_some_iff.1 h
      simp only [Prod.mk.injEq] at he
      obtain ⟨rfl, rfl⟩ := he
      simp [ih hs]

namespace Graph

/-- Turns an equals sign as a key into a text. -/
def plainKey (g : Graph) (key : NodeId) : Graph :=
  g.change key fun n => if n.tag = Tag.value then { n with tag := Tag.str } else n

/-- Gives members to a mapping, none of which is under a merge key, with their equals signs as
texts. -/
def settle (g : Graph) (id : NodeId) (ms : Members) : Graph :=
  ms.foldl (fun g m => g.plainKey m.1) (g.fill id (.mapping ms))

/-- The number of members of all mappings. -/
def memberCount (g : Graph) : Nat :=
  (List.range g.size).foldl (fun count id => count + (g.members id).length) 0

end Graph

/-- Fails because what a merge key asks for is not a mapping. -/
def badMerge {α : Type} : Result α := .error (.malformed .badMerge)

mutual

/-- Merges into a mapping what it asks for, behind the members that were merged before. On the way
`levels` more mappings may be merged inside each other. -/
def mergeFrom : (fuel levels : Nat) → (id : NodeId) → (merged : Members) → Graph → Result Graph
  | 0, _, _, _, g => .ok g
  | fuel + 1, levels, id, merged, g =>
    match takeMerge? g (g.members id) with
    | none => .ok (g.settle id (merged ++ g.members id))
    | some (source, others) => do
      let (brought, g) ← broughtBy fuel levels source (g.fill id (.mapping others))
      mergeFrom fuel levels id (merged ++ brought) g

/-- The members that a mapping or a list of mappings brings, each merged first. -/
def broughtBy : (fuel levels : Nat) → (source : NodeId) → Graph → Result (Members × Graph)
  | 0, _, _, g => .ok ([], g)
  | fuel + 1, levels, source, g =>
    match g.content source with
    | .mapping _ => do
      let g ← mergeFrom fuel (← further levels) source [] g
      return (g.members source, g)
    | .sequence items =>
      items.foldlM (fun (brought, g) item => do
        match g.content item with
        | .mapping _ =>
          let g ← mergeFrom fuel (← further levels) item [] g
          return (g.members item ++ brought, g)
        | _ => badMerge) ([], g)
    | .scalar _ => badMerge

end

/-- Merges into a mapping what it asks for. Two steps in a row take a merge key off, and merged
members are under none. -/
def merge (levels : Nat) (id : NodeId) (g : Graph) : Result Graph :=
  mergeFrom (2 * g.memberCount + 2) levels id [] g

end FieldProgram.Yaml

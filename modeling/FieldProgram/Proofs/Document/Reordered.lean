import FieldProgram.Document.Integer
import FieldProgram.Proofs.Matched
import FieldProgram.Proofs.Program.Agree

/-!
# Documents whose members stand in another order

`Reordered` relates two documents that are the same up to the order of members, in mappings at any
depth. Where no key is repeated, the order cannot be seen by looking members up.

* `Reordered.of_perm`, `Reordered.item`, `Reordered.member`: how documents are reordered;
* `Reordered.symm`, `Reordered.keysDistinct`: what the two documents share;
* `Reordered.lookup`, `Reordered.member?`: what is found under a name;
* `Reordered.integer`: the integer that they stand for.
-/

namespace FieldProgram.Document

open Entries

mutual

/-- The documents are the same, the members of mappings in any order. -/
def Reordered : Document → Document → Prop
  | .list xs, e => ∃ ys, e = .list ys ∧ ReorderedItems xs ys
  | .map ms, e => ∃ ks ns, e = .map ns ∧ ReorderedMembers ms ks ∧ ks.Perm ns
  | d, e => e = d

/-- The items are the same up to order inside them. -/
def ReorderedItems : List Document → List Document → Prop
  | [], ys => ys = []
  | x :: xs, ys => ∃ z zs, ys = z :: zs ∧ Reordered x z ∧ ReorderedItems xs zs

/-- The members are the same up to order inside them. -/
def ReorderedMembers : List (Text × Document) → List (Text × Document) → Prop
  | [], ks => ks = []
  | (name, v) :: ms, ks => ∃ w rest, ks = (name, w) :: rest ∧ Reordered v w ∧
      ReorderedMembers ms rest

end

theorem reorderedItems_iff {xs ys : List Document} :
    ReorderedItems xs ys ↔ List.Forall₂ Reordered xs ys := by
  induction xs generalizing ys with
  | nil => rw [ReorderedItems, List.forall₂_nil_left_iff]
  | cons x xs ih =>
    rw [ReorderedItems, List.forall₂_cons_left_iff]
    constructor
    · rintro ⟨z, zs, rfl, first, rest⟩
      exact ⟨z, zs, first, ih.mp rest, rfl⟩
    · rintro ⟨z, zs, first, rest, rfl⟩
      exact ⟨z, zs, rfl, first, ih.mpr rest⟩

theorem reorderedMembers_iff {ms ks : List (Text × Document)} :
    ReorderedMembers ms ks ↔ List.Forall₂ (Alike Reordered) ms ks := by
  induction ms generalizing ks with
  | nil => rw [ReorderedMembers, List.forall₂_nil_left_iff]
  | cons m ms ih =>
    obtain ⟨name, v⟩ := m
    rw [ReorderedMembers, List.forall₂_cons_left_iff]
    constructor
    · rintro ⟨w, rest, rfl, first, others⟩
      exact ⟨(name, w), rest, ⟨rfl, first⟩, ih.mp others, rfl⟩
    · rintro ⟨⟨_, w⟩, rest, ⟨rfl, first⟩, others, rfl⟩
      exact ⟨w, rest, rfl, first, ih.mpr others⟩

/-! ## One layer -/

@[simp] theorem reordered_null {e : Document} : Reordered .null e ↔ e = .null := by
  simp [Reordered]

@[simp] theorem reordered_bool {b : Bool} {e : Document} : Reordered (.bool b) e ↔ e = .bool b := by
  simp [Reordered]

@[simp] theorem reordered_int {n : Int} {e : Document} : Reordered (.int n) e ↔ e = .int n := by
  simp [Reordered]

@[simp] theorem reordered_float {x : Binary64} {e : Document} :
    Reordered (.float x) e ↔ e = .float x := by
  simp [Reordered]

@[simp] theorem reordered_str {t : Text} {e : Document} : Reordered (.str t) e ↔ e = .str t := by
  simp [Reordered]

@[simp] theorem reordered_list {xs : List Document} {e : Document} :
    Reordered (.list xs) e ↔ ∃ ys, e = .list ys ∧ List.Forall₂ Reordered xs ys := by
  simp only [Reordered, reorderedItems_iff]

@[simp] theorem reordered_map {ms : List (Text × Document)} {e : Document} :
    Reordered (.map ms) e ↔ ∃ ns, e = .map ns ∧ Matched (Alike Reordered) ms ns := by
  simp only [Reordered, reorderedMembers_iff]
  constructor
  · rintro ⟨ks, ns, rfl, related, perm⟩
    exact ⟨ns, rfl, ks, related, perm⟩
  · rintro ⟨ns, rfl, ks, related, perm⟩
    exact ⟨ks, ns, rfl, related, perm⟩

/-! ## How documents are reordered -/

mutual

theorem Reordered.refl : (d : Document) → d.Reordered d
  | .null | .bool _ | .int _ | .float _ | .str _ => by simp
  | .list xs => reordered_list.mpr ⟨xs, rfl, Reordered.reflItems xs⟩
  | .map ms => reordered_map.mpr ⟨ms, rfl, ms, Reordered.reflMembers ms, .refl ms⟩

theorem Reordered.reflItems : (xs : List Document) → List.Forall₂ Reordered xs xs
  | [] => .nil
  | x :: xs => .cons (Reordered.refl x) (Reordered.reflItems xs)

theorem Reordered.reflMembers :
    (ms : List (Text × Document)) → List.Forall₂ (Alike Reordered) ms ms
  | [] => .nil
  | (_, v) :: ms => .cons ⟨rfl, Reordered.refl v⟩ (Reordered.reflMembers ms)

end

theorem Reordered.of_perm {ms ns : List (Text × Document)} (perm : ms.Perm ns) :
    Reordered (.map ms) (.map ns) :=
  reordered_map.mpr ⟨ns, rfl, ms, Reordered.reflMembers ms, perm⟩

/-- A reordering inside one item. -/
theorem Reordered.item {v w : Document} (h : v.Reordered w) (before after : List Document) :
    Reordered (.list (before ++ v :: after)) (.list (before ++ w :: after)) := by
  refine reordered_list.mpr ⟨_, rfl, List.rel_append (Reordered.reflItems before) ?_⟩
  exact .cons h (Reordered.reflItems after)

/-- A reordering inside one member. -/
theorem Reordered.member {v w : Document} (h : v.Reordered w)
    (before : List (Text × Document)) (name : Text) (after : List (Text × Document)) :
    Reordered (.map (before ++ (name, v) :: after)) (.map (before ++ (name, w) :: after)) := by
  refine reordered_map.mpr ⟨_, rfl, _, List.rel_append (Reordered.reflMembers before) ?_, .refl _⟩
  exact .cons ⟨rfl, h⟩ (Reordered.reflMembers after)

/-! ## Both ways -/

mutual

theorem Reordered.symm : (d : Document) → ∀ {e : Document}, d.Reordered e → e.Reordered d
  | .null, _, h | .bool _, _, h | .int _, _, h | .float _, _, h | .str _, _, h => by
    obtain rfl := h
    simp
  | .list xs, _, h => by
    obtain ⟨ys, rfl, items⟩ := reordered_list.mp h
    exact reordered_list.mpr ⟨xs, rfl, Reordered.symmItems xs items⟩
  | .map ms, _, h => by
    obtain ⟨ns, rfl, ks, members, perm⟩ := reordered_map.mp h
    obtain ⟨ls, related, perm'⟩ :=
      List.perm_comp_forall₂ perm.symm (Reordered.symmMembers ms members)
    exact reordered_map.mpr ⟨ms, rfl, ls, related, perm'⟩

theorem Reordered.symmItems : (xs : List Document) → ∀ {ys : List Document},
    List.Forall₂ Reordered xs ys → List.Forall₂ Reordered ys xs
  | [], _, .nil => .nil
  | x :: xs, _, .cons first rest =>
    .cons (Reordered.symm x first) (Reordered.symmItems xs rest)

theorem Reordered.symmMembers : (ms : List (Text × Document)) →
    ∀ {ks : List (Text × Document)}, List.Forall₂ (Alike Reordered) ms ks →
      List.Forall₂ (Alike Reordered) ks ms
  | [], _, .nil => .nil
  | (_, v) :: ms, _, .cons first rest =>
    .cons ⟨first.1.symm, Reordered.symm v first.2⟩ (Reordered.symmMembers ms rest)

end

mutual

theorem Reordered.keysDistinct :
    (d : Document) → ∀ {e : Document}, d.Reordered e → d.KeysDistinct → e.KeysDistinct
  | .null, _, h, _ | .bool _, _, h, _ | .int _, _, h, _ | .float _, _, h, _ | .str _, _, h, _ => by
    obtain rfl := h
    trivial
  | .list xs, _, h, distinct => by
    obtain ⟨ys, rfl, items⟩ := reordered_list.mp h
    exact keysDistinct_list.mpr
      (Reordered.keysDistinctItems xs items (keysDistinct_list.mp distinct))
  | .map ms, _, h, distinct => by
    obtain ⟨ns, rfl, members⟩ := reordered_map.mp h
    obtain ⟨nodup, distinct⟩ := keysDistinct_map.mp distinct
    obtain ⟨ks, related, perm⟩ := members
    have each := Reordered.keysDistinctMembers ms related distinct
    exact keysDistinct_map.mpr ⟨(keys_perm ⟨ks, related, perm⟩).nodup_iff.mp nodup,
      fun n hn => each n (perm.mem_iff.mpr hn)⟩

theorem Reordered.keysDistinctItems : (xs : List Document) → ∀ {ys : List Document},
    List.Forall₂ Reordered xs ys → (∀ x ∈ xs, x.KeysDistinct) → ∀ y ∈ ys, y.KeysDistinct
  | [], _, .nil, _ => by simp
  | x :: xs, _, .cons first rest, distinct => by
    obtain ⟨head, tail⟩ := List.forall_mem_cons.mp distinct
    exact List.forall_mem_cons.mpr
      ⟨Reordered.keysDistinct x first head, Reordered.keysDistinctItems xs rest tail⟩

theorem Reordered.keysDistinctMembers : (ms : List (Text × Document)) →
    ∀ {ks : List (Text × Document)}, List.Forall₂ (Alike Reordered) ms ks →
      (∀ m ∈ ms, m.2.KeysDistinct) → ∀ k ∈ ks, k.2.KeysDistinct
  | [], _, .nil, _ => by simp
  | (_, v) :: ms, _, .cons first rest, distinct => by
    obtain ⟨head, tail⟩ := List.forall_mem_cons.mp distinct
    exact List.forall_mem_cons.mpr
      ⟨Reordered.keysDistinct v first.2 head, Reordered.keysDistinctMembers ms rest tail⟩

end

/-! ## What can be seen -/

/-- The documents are the same up to order, and the first repeats no key. -/
def Rearranged (d e : Document) : Prop := d.KeysDistinct ∧ d.Reordered e

namespace Rearranged

theorem symm {d e : Document} (h : d.Rearranged e) : e.Rearranged d :=
  ⟨h.2.keysDistinct d h.1, h.2.symm d⟩

theorem list {xs : List Document} {e : Document} (h : Rearranged (.list xs) e) :
    ∃ ys, e = .list ys ∧ List.Forall₂ Rearranged xs ys := by
  obtain ⟨distinct, reordered⟩ := h
  obtain ⟨ys, rfl, items⟩ := reordered_list.mp reordered
  refine ⟨ys, rfl, ?_⟩
  have each := keysDistinct_list.mp distinct
  clear reordered distinct
  induction items with
  | nil => exact .nil
  | cons first _ ih =>
    obtain ⟨head, tail⟩ := List.forall_mem_cons.mp each
    exact .cons ⟨head, first⟩ (ih tail)

theorem map {ms : List (Text × Document)} {e : Document} (h : Rearranged (.map ms) e) :
    ∃ ns, e = .map ns ∧ (ms.map Prod.fst).Nodup ∧ Matched (Alike Rearranged) ms ns := by
  obtain ⟨distinct, reordered⟩ := h
  obtain ⟨ns, rfl, ks, members, perm⟩ := reordered_map.mp reordered
  obtain ⟨nodup, each⟩ := keysDistinct_map.mp distinct
  refine ⟨ns, rfl, nodup, ks, ?_, perm⟩
  clear reordered distinct nodup perm
  induction members with
  | nil => exact .nil
  | cons first _ ih =>
    obtain ⟨head, tail⟩ := List.forall_mem_cons.mp each
    exact .cons ⟨first.1, head, first.2⟩ (ih tail)

theorem lookup {ms ns : List (Text × Document)} (h : Rearranged (.map ms) (.map ns))
    (name : Text) : Option.Rel Rearranged (ms.lookup name) (ns.lookup name) := by
  obtain ⟨_, ⟨⟩, nodup, members⟩ := h.map
  exact lookup_of_matched members nodup name

theorem member? {d e : Document} (h : d.Rearranged e) (name : Text) :
    Option.Rel Rearranged (d.member? name) (e.member? name) := by
  cases d with
  | map ms =>
    obtain ⟨ns, rfl, -⟩ := h.map
    exact h.lookup name
  | list xs =>
    obtain ⟨ys, rfl, -⟩ := h.list
    exact .none
  | _ =>
    obtain rfl : e = _ := h.2
    exact .none

theorem items? {d e : Document} (h : d.Rearranged e) :
    List.Forall₂ Rearranged (d.items?.getD []) (e.items?.getD []) := by
  cases d with
  | map ms =>
    obtain ⟨ns, rfl, -⟩ := h.map
    exact .nil
  | list xs =>
    obtain ⟨ys, rfl, items⟩ := h.list
    exact items
  | _ =>
    obtain rfl : e = _ := h.2
    exact .nil

theorem members? {d e : Document} (h : d.Rearranged e) :
    Matched (Alike Rearranged) (d.members?.getD []) (e.members?.getD []) := by
  cases d with
  | map ms =>
    obtain ⟨ns, rfl, -, members⟩ := h.map
    exact members
  | list xs =>
    obtain ⟨ys, rfl, -⟩ := h.list
    exact ⟨[], .nil, .nil⟩
  | _ =>
    obtain rfl : e = _ := h.2
    exact ⟨[], .nil, .nil⟩

theorem integer {d e : Document} (h : d.Rearranged e) : d.integer = e.integer := by
  cases d with
  | map ms =>
    obtain ⟨ns, rfl, -⟩ := h.map
    rfl
  | list xs =>
    obtain ⟨ys, rfl, -⟩ := h.list
    rfl
  | _ =>
    obtain rfl : e = _ := h.2
    rfl

end Rearranged

end FieldProgram.Document

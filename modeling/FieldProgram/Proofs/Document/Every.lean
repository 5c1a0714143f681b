import FieldProgram.Proofs.Json.Written

/-!
# What holds of every integer and every text in a document

`Document.Every P Q` says that `P` holds of all integers in a document and `Q` of all its texts, the
keys among them.

* `Every.of_lookup`, `Every.of_member?`: it holds in all parts then;
* `short_iff_every`: short documents have short integers;
* `joined_of_unsplit`, `every_joined`: joining changes no document in which no pair is split, and
  leaves no pair split.
-/

namespace FieldProgram.Document

variable {P : Int → Prop} {Q : Text → Prop}

mutual

/-- Every integer in the document has the one property and every text the other. -/
def Every (P : Int → Prop) (Q : Text → Prop) : Document → Prop
  | .int n => P n
  | .str t => Q t
  | .list items => EveryItem P Q items
  | .map members => EveryMember P Q members
  | _ => True

def EveryItem (P : Int → Prop) (Q : Text → Prop) : List Document → Prop
  | [] => True
  | x :: xs => Every P Q x ∧ EveryItem P Q xs

def EveryMember (P : Int → Prop) (Q : Text → Prop) : List (Text × Document) → Prop
  | [] => True
  | (k, v) :: ms => (Q k ∧ Every P Q v) ∧ EveryMember P Q ms

end

theorem everyItem_iff {xs : List Document} : EveryItem P Q xs ↔ ∀ x ∈ xs, Every P Q x := by
  induction xs with
  | nil => simp [EveryItem]
  | cons x xs ih => rw [EveryItem, ih, List.forall_mem_cons]

theorem everyMember_iff {ms : List (Text × Document)} :
    EveryMember P Q ms ↔ ∀ m ∈ ms, Q m.1 ∧ Every P Q m.2 := by
  induction ms with
  | nil => simp [EveryMember]
  | cons m ms ih =>
    obtain ⟨k, v⟩ := m
    rw [EveryMember, ih, List.forall_mem_cons]

@[simp] theorem every_null : Every P Q .null := by simp [Every]

@[simp] theorem every_int {n : Int} : Every P Q (.int n) ↔ P n := by simp [Every]

@[simp] theorem every_str {t : Text} : Every P Q (.str t) ↔ Q t := by simp [Every]

@[simp] theorem every_list {xs : List Document} :
    Every P Q (.list xs) ↔ ∀ x ∈ xs, Every P Q x := by
  rw [Every, everyItem_iff]

@[simp] theorem every_map {ms : List (Text × Document)} :
    Every P Q (.map ms) ↔ ∀ m ∈ ms, Q m.1 ∧ Every P Q m.2 := by
  rw [Every, everyMember_iff]

/-! ## Parts -/

theorem Every.of_lookup {ms : List (Text × Document)} (every : Every P Q (.map ms)) {name : Text}
    {v : Document} (found : ms.lookup name = some v) : Every P Q v := by
  rw [every_map] at every
  obtain ⟨before, after, rfl, -⟩ := List.lookup_eq_some_iff.mp found
  exact (every (name, v) (by simp)).2

theorem Every.of_member? {d : Document} (every : d.Every P Q) {name : Text} {v : Document}
    (found : d.member? name = some v) : v.Every P Q := by
  cases d with
  | map ms => exact every.of_lookup found
  | _ => cases found

theorem Every.of_items? {d : Document} (every : d.Every P Q) :
    ∀ x ∈ d.items?.getD [], x.Every P Q := by
  cases d with
  | list xs => exact every_list.mp every
  | _ => simp [items?]

theorem Every.of_members? {d : Document} (every : d.Every P Q) :
    ∀ m ∈ d.members?.getD [], Q m.1 ∧ m.2.Every P Q := by
  cases d with
  | map ms => exact every_map.mp every
  | _ => simp [members?]

/-! ## Short documents -/

mutual

theorem short_iff_every : (d : Document) → (d.Short ↔ d.Every ShortInteger fun _ => True)
  | .null | .bool _ | .float _ | .str _ | .int _ => by simp [Short, Every]
  | .list xs => by rw [Short, Every, shortItems_iff_every xs]
  | .map ms => by rw [Short, Every, shortMembers_iff_every ms]

theorem shortItems_iff_every : (xs : List Document) →
    (ShortItems xs ↔ EveryItem ShortInteger (fun _ => True) xs)
  | [] => by simp [ShortItems, EveryItem]
  | x :: xs => by rw [ShortItems, EveryItem, short_iff_every x, shortItems_iff_every xs]

theorem shortMembers_iff_every : (ms : List (Text × Document)) →
    (ShortMembers ms ↔ EveryMember ShortInteger (fun _ => True) ms)
  | [] => by simp [ShortMembers, EveryMember]
  | (k, v) :: ms => by
    rw [ShortMembers, EveryMember, short_iff_every v, shortMembers_iff_every ms, true_and]

end

/-! ## Joined documents -/

mutual

theorem joined_of_unsplit : (d : Document) → d.Every P Text.Unsplit → d.joined = d
  | .null, _ | .bool _, _ | .float _, _ | .int _, _ => rfl
  | .str t, h => by rw [joined, Text.joined_of_unsplit h]
  | .list xs, h => by rw [joined, joinedItems_of_unsplit xs h]
  | .map ms, h => by rw [joined, joinedMembers_of_unsplit ms h]

theorem joinedItems_of_unsplit : (xs : List Document) → EveryItem P Text.Unsplit xs →
    joinedItems xs = xs
  | [], _ => rfl
  | x :: xs, h => by rw [joinedItems, joined_of_unsplit x h.1, joinedItems_of_unsplit xs h.2]

theorem joinedMembers_of_unsplit : (ms : List (Text × Document)) →
    EveryMember P Text.Unsplit ms → joinedMembers ms = ms
  | [], _ => rfl
  | (k, v) :: ms, h => by
    rw [joinedMembers, Text.joined_of_unsplit h.1.1, joined_of_unsplit v h.1.2,
      joinedMembers_of_unsplit ms h.2]

end

mutual

theorem every_joined : (d : Document) → d.joined.Every (fun _ => True) Text.Unsplit
  | .null | .bool _ | .float _ | .int _ => trivial
  | .str t => t.unsplit_joined
  | .list xs => everyItem_joined xs
  | .map ms => everyMember_joined ms

theorem everyItem_joined : (xs : List Document) →
    EveryItem (fun _ => True) Text.Unsplit (joinedItems xs)
  | [] => trivial
  | x :: xs => ⟨every_joined x, everyItem_joined xs⟩

theorem everyMember_joined : (ms : List (Text × Document)) →
    EveryMember (fun _ => True) Text.Unsplit (joinedMembers ms)
  | [] => trivial
  | (k, v) :: ms => ⟨⟨k.unsplit_joined, every_joined v⟩, everyMember_joined ms⟩

end

end FieldProgram.Document

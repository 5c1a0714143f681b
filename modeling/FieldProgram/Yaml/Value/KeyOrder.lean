import FieldProgram.Yaml.Atom

/-!
# The order of the keys of a set

A set keeps its keys in a table with more than twice as many slots and shows them slot by slot. The
place of a number follows from its residue modulo a prime; where the slot at that place is taken, a
fixed sequence of other slots is tried. Keys that are no numbers have no place known from their
value, and a set with such a key is shown in the order in which its keys were put in.

`length_inSlots` says that no key is lost.
-/

namespace FieldProgram.Yaml

/-! ## Places -/

/-- The prime that places are residues of. Sixty-one doublings leave a residue as it is. -/
def placePrime : Nat := 0x1fffffffffffffff

/-- The residue of `significand * 2 ^ exponent`. -/
def binaryResidue (significand : Nat) (exponent : Int) : Nat :=
  significand * Nat.pow 2 (exponent % 61).toNat % placePrime

/-- A residue with a sign as a word of 64 bits. One below zero is the mark of no place, and two
below zero stands in for it. -/
def signedPlace (negative : Bool) (residue : Nat) : Nat :=
  if negative && residue ≠ 0 then 0x10000000000000000 - max residue 2 else residue

/-- The place of infinity. -/
def infinityPlace : Nat := 314159

/-- The place of a key that is a number. -/
def place? : Atom → Option Nat
  | .bool b => some (if b then 1 else 0)
  | .int n => some (signedPlace (n < 0) (n.natAbs % placePrime))
  | .float (.finite s m e) => some (signedPlace s (binaryResidue m e))
  | .float (.infinity s) => some (signedPlace s infinityPlace)
  | _ => none

/-! ## Slots -/

/-- The number of slots for so many keys, a power of two. -/
def slotCount (keys : Nat) : Nat := if keys < 5 then 8 else Nat.pow 2 ((2 * keys).log2 + 1)

/-- How many slots behind the first are tried at once, where the table does not end before. -/
def reach (slots first : Nat) : Nat := if first + 9 < slots then 9 else 0

/-- The first slot that is not taken, of those from `first` on and then of those that the rest of
the place leads to. -/
def freeSlot (slots : Nat) (taken : List Nat) : (turns : Nat) → (rest first : Nat) → Nat
  | 0, _, first => first
  | turns + 1, rest, first =>
    match (List.range' first (reach slots first + 1)).find? (· ∉ taken) with
    | some slot => slot
    | none => freeSlot slots taken turns (rest / 32) ((first * 5 + 1 + rest / 32) % slots)

/-- Keys with their slots. -/
abbrev Slots := List (Nat × Atom)

/-- Puts a key with a place into a table. After the turns that use the place up, every slot is
tried. -/
def putKey (slots : Nat) (table : Slots) (key : Atom × Nat) : Slots :=
  (freeSlot slots (table.map Prod.fst) (slots + 13) key.2 (key.2 % slots), key.1) :: table

/-- The keys that have places in the order of their slots. -/
def inSlots (keys : List (Atom × Nat)) : List Atom :=
  ((keys.foldl (putKey (slotCount keys.length)) []).mergeSort fun a b => a.1 ≤ b.1).map Prod.snd

/-- The keys of a set in the order in which they are shown. -/
def shownOrder (keys : List Atom) : List Atom :=
  match keys.mapM place? with
  | some places => inSlots (keys.zip places)
  | none => keys

theorem length_foldl_putKey (slots : Nat) (keys : List (Atom × Nat)) (table : Slots) :
    (keys.foldl (putKey slots) table).length = table.length + keys.length := by
  induction keys generalizing table with
  | nil => rfl
  | cons k ks ih => simp [ih, putKey]; omega

theorem length_inSlots (keys : List (Atom × Nat)) : (inSlots keys).length = keys.length := by
  simp [inSlots, List.length_mergeSort, length_foldl_putKey]

end FieldProgram.Yaml

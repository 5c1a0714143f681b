import FieldProgram.Proofs.Text.Utf8

/-!
# ASCII text in octets

The octets of a text of ASCII characters show no encoding but UTF-8.

* `AllAscii`: the texts, closed under what documents are put together with;
* `decodeSniffed_ascii`: such octets decode to the text that they encode.
-/

namespace FieldProgram

namespace Text

/-! ## Texts -/

/-- The character is in ASCII and not null. -/
def IsAscii (c : Char) : Prop := 0 < c.toNat ∧ c.toNat < 0x80

instance (c : Char) : Decidable (IsAscii c) := inferInstanceAs (Decidable (_ ∧ _))

/-- All characters are in ASCII. -/
def AllAscii (cs : List Char) : Prop := ∀ c ∈ cs, IsAscii c

instance (cs : List Char) : Decidable (AllAscii cs) := List.decidableBAll IsAscii cs

@[simp] theorem allAscii_nil : AllAscii [] := by simp [AllAscii]

@[simp] theorem allAscii_cons {c : Char} {cs : List Char} :
    AllAscii (c :: cs) ↔ IsAscii c ∧ AllAscii cs := List.forall_mem_cons

@[simp] theorem allAscii_append {as bs : List Char} :
    AllAscii (as ++ bs) ↔ AllAscii as ∧ AllAscii bs := List.forall_mem_append

theorem allAscii_replicate {c : Char} (h : IsAscii c) (k : Nat) : AllAscii (List.replicate k c) :=
  fun _ hd => List.eq_of_mem_replicate hd ▸ h

theorem allAscii_intercalate {separator : List Char} (h : AllAscii separator)
    {parts : List (List Char)} (all : ∀ p ∈ parts, AllAscii p) :
    AllAscii (separator.intercalate parts) := by
  induction parts with
  | nil => simp
  | cons p ps ih =>
    obtain ⟨first, others⟩ := List.forall_mem_cons.mp all
    cases ps with
    | nil => simpa using first
    | cons q qs =>
      rw [List.intercalate_cons_of_ne_nil (List.cons_ne_nil _ _)]
      simp [first, h, ih others]

theorem allAscii_digits {ds : List Nat} (h : ∀ d ∈ ds, d < 16) :
    AllAscii (ds.map Nat.digitChar) := by
  have all : ∀ d < 16, IsAscii (Nat.digitChar d) := by decide
  intro c hc
  obtain ⟨d, hd, rfl⟩ := List.mem_map.mp hc
  exact all d (h d hd)

/-! ## Octets -/

theorem decodeSniffed_ascii {cs : List Char} (h : AllAscii cs) :
    decodeSniffed (Utf8.encode cs) = .ok (cs.map .char) := by
  refine decodeSniffed_encode (fun marked => ?_) (fun null => ?_)
  · exact absurd (h _ (List.mem_of_head? marked)).2 (by decide)
  · exact absurd (h _ (List.mem_of_mem_take null)).1 (by decide)

end Text

end FieldProgram

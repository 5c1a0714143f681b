import FieldProgram.Json.Token

/-!
# Strings that are written as they are

* `string_plain`: code points that stand for themselves are read up to the closing quote.
-/

namespace FieldProgram.Json

/-- A code point that stands for itself in a string. -/
def Plain (c : Code) : Prop := c ≠ .char '"' ∧ c ≠ .char '\\' ∧ 0x20 ≤ c.number

instance : DecidablePred Plain := fun _ => inferInstanceAs (Decidable (_ ∧ _))

theorem stringStep_plain {c : Code} (plain : Plain c) (start : Nat) (rest : List Code) :
    stringStep start (c :: rest) = .code c rest := by
  obtain ⟨quote, backslash, printable⟩ := plain
  unfold stringStep
  split
  · rename_i h
    cases h
  · rename_i h
    exact absurd (List.cons.inj h).1 quote
  · rename_i h
    exact absurd (List.cons.inj h).1 backslash
  · rename_i h
    obtain ⟨rfl, rfl⟩ := List.cons.inj h
    rw [if_neg (Nat.not_lt.mpr printable)]

theorem stringFrom_plain {cs : List Code} (plain : ∀ c ∈ cs, Plain c) (start fuel : Nat)
    (fits : cs.length < fuel) (read rest : List Code) :
    stringFrom start fuel read (cs ++ .char '"' :: rest) = .ok (⟨read.reverse ++ cs⟩, rest) := by
  induction cs generalizing fuel read with
  | nil =>
    cases fuel with
    | zero => cases fits
    | succ fuel => simp [stringFrom, stringStep]
  | cons c cs ih =>
    cases fuel with
    | zero => cases fits
    | succ fuel =>
      obtain ⟨first, others⟩ := List.forall_mem_cons.mp plain
      rw [List.cons_append, stringFrom, stringStep_plain first]
      show stringFrom start fuel (c :: read) (cs ++ .char '"' :: rest) = _
      rw [ih others fuel (Nat.lt_of_succ_lt_succ fits)]
      simp

theorem string_plain {cs : List Code} (plain : ∀ c ∈ cs, Plain c) (rest : List Code) :
    string (cs ++ .char '"' :: rest) = .ok (⟨cs⟩, rest) := by
  rw [string, stringFrom_plain plain]
  · rfl
  · simp only [List.length_append, List.length_cons]
    omega

end FieldProgram.Json

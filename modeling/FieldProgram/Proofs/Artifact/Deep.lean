import FieldProgram.Proofs.Artifact.Overrun
import FieldProgram.Proofs.Json.Levels

/-!
# Artifacts with deep brackets

A section of an artifact that is not looked at may hold lists inside each other, as many as the
calls of the reader allow. What stands in the innermost list decides whether the text is read.

* `readMarked_deepText`, `readMarked_deepText_error`: how such a text is read;
* `deepDocument_loads`: what it loads to.
-/

namespace FieldProgram.Artifact

variable {policy : Json.KeyPolicy} {b : Json.Bracket}

/-- The text of an artifact with an empty list or object inside as many lists and one more. -/
def deepText (b : Json.Bracket) (n : Nat) : List Code :=
  .char '\x7b' :: .char '"' :: .char 'x' :: .char '"' :: .char ':' ::
    Json.nestedText b (n + 1) (keyedRest.drop 4)

def deepDocument (b : Json.Bracket) (n : Nat) : Document := .map [
  ("x", Json.nested (n + 1) (Json.emptyValue b)),
  ("prime", .str "0x7"),
  ("data", .list []),
  ("identifiers", .map []),
  ("reference_manager", .map [("references", .list [])])]

theorem memberKey_deepText (b : Json.Bracket) (n : Nat) :
    Json.memberKey (deepText b n).tail =
      .ok ("x", Json.nestedText b (n + 1) (keyedRest.drop 4)) := by
  show (Json.string ([.char 'x'] ++ .char '"' :: .char ':' ::
    Json.nestedText b (n + 1) _) >>= _) = _
  rw [Json.string_plain (by decide)]
  show Except.ok (_, Json.skipSpace (Json.nestedText b (n + 1) _)) = _
  rw [Json.skipSpace_nestedText]
  rfl

/-- How the section is read depends on its innermost value only. -/
theorem value_deepSection {levels : Nat} {r : Except Json.ReadError Document}
    (inside : ∀ fuel rest, Json.value policy (fuel + 1) levels (Json.emptyText b ++ rest) =
      r.map (·, rest)) (fuel n : Nat) (rest : List Code) :
    Json.value policy (fuel + 2 * (n + 1) + 28) (levels + n + 1) (Json.nestedText b (n + 1) rest) =
      r.map fun d => (Json.nested (n + 1) d, rest) := by
  have spend : fuel + 2 * (n + 1) + 28 = fuel + 27 + 2 * (n + 1) + 1 := by omega
  rw [spend]
  exact Json.value_nestedText inside (n + 1) (fuel + 27) rest

theorem value_deepText {levels : Nat}
    (inside : ∀ fuel rest, Json.value policy (fuel + 1) (levels + 1) (Json.emptyText b ++ rest) =
      .ok (Json.emptyValue b, rest)) (fuel n : Nat) :
    Json.value policy (fuel + 2 * (n + 1) + 30) (levels + n + 3) (deepText b n) =
      .ok (deepDocument b n, []) := by
  have read : Json.value policy (fuel + 2 * (n + 1) + 28) (levels + n + 2)
      (Json.nestedText b (n + 1) (keyedRest.drop 4)) =
        .ok (Json.nested (n + 1) (Json.emptyValue b), keyedRest.drop 4) := by
    have depth : levels + n + 2 = levels + 1 + n + 1 := by omega
    rw [depth]
    exact value_deepSection (r := .ok (Json.emptyValue b)) inside fuel n _
  show Json.members policy (fuel + 2 * (n + 1) + 29) (levels + n + 2) [] (deepText b n).tail = _
  rw [Json.members, memberKey_deepText]
  show (Json.value policy (fuel + 2 * (n + 1) + 28) (levels + n + 2) _ >>= _) = _
  rw [read]
  cases policy <;> rfl

theorem value_deepText_error {levels : Nat} {e : Json.ReadError}
    (inside : ∀ fuel rest, Json.value policy (fuel + 1) levels (Json.emptyText b ++ rest) =
      .error e) (fuel n : Nat) :
    Json.value policy (fuel + 2 * (n + 1) + 30) (levels + n + 2) (deepText b n) = .error e := by
  show Json.members policy (fuel + 2 * (n + 1) + 29) (levels + n + 1) [] (deepText b n).tail = _
  rw [Json.members, memberKey_deepText]
  show (Json.value policy (fuel + 2 * (n + 1) + 28) (levels + n + 1) _ >>= _) = _
  rw [value_deepSection (r := .error e) inside]
  rfl

/-- The fuel for the text, with what is left over. -/
theorem fuel_deepText (b : Json.Bracket) (n : Nat) :
    2 * (deepText b n).length + 2 = 2 * n + 148 + 2 * (n + 1) + 30 := by
  have rest : (keyedRest.drop 4).length = 80 := by rfl
  simp only [deepText, List.length_cons, Json.length_nestedText, rest]
  omega

theorem readMarked_deepText {levels : Nat}
    (inside : ∀ fuel rest, Json.value policy (fuel + 1) (levels + 1) (Json.emptyText b ++ rest) =
      .ok (Json.emptyValue b, rest)) (n : Nat) :
    Json.readMarked policy (levels + n + 3) (deepText b n) = .ok (deepDocument b n) := by
  show Json.read policy (levels + n + 3) (deepText b n) = _
  rw [Json.read, fuel_deepText]
  show (Json.value _ (2 * n + 148 + 2 * (n + 1) + 30) (levels + n + 3) (deepText b n) >>= _) = _
  rw [value_deepText inside]
  rfl

theorem readMarked_deepText_error {levels : Nat} {e : Json.ReadError}
    (inside : ∀ fuel rest, Json.value policy (fuel + 1) levels (Json.emptyText b ++ rest) =
      .error e) (n : Nat) :
    Json.readMarked policy (levels + n + 2) (deepText b n) = .error e := by
  show Json.read policy (levels + n + 2) (deepText b n) = _
  rw [Json.read, fuel_deepText]
  show (Json.value _ (2 * n + 148 + 2 * (n + 1) + 30) (levels + n + 2) (deepText b n) >>= _) = _
  rw [value_deepText_error inside]
  rfl

/-! ## Loading -/

/-- A program without data. -/
def emptyProgram : Program where
  prime := 7
  builtins := []
  data := []
  main := none
  hints := []
  references := ⟨[]⟩
  identifiers := []

theorem deepDocument_loads (b : Json.Bracket) (n : Nat) :
    Loads (deepDocument b n) "main" none emptyProgram := by
  have layout : IsArtifact (deepDocument b n) :=
    isArtifact_of_members rfl (.inl ⟨_, rfl⟩) rfl rfl rfl (.of_absent rfl) (.of_absent rfl) rfl
  exact {
    layout := layout
    prime := rfl
    one_lt := by decide
    expected := by simp
    data := .nil
    symbols := .nil
    hints := hints_eq_ok_iff.mp rfl
    references := (references_eq_ok_iff layout.listed).mp rfl
    named := checkReferenceIds_eq_ok_iff.mp rfl
    builtins := rfl
    main := rfl }

end FieldProgram.Artifact

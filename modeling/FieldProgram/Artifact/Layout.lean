import FieldProgram.Artifact.Error

/-!
# The layout of artifacts

An artifact is an object with a prime, data, identifiers and a table of references; the other
members may be left out, and further members are allowed.
-/

namespace FieldProgram.Artifact

/-- The layout as a schema. -/
def layout : Schema where
  types := [.object]
  required := ["prime", "data", "identifiers", "reference_manager"]
  members := [
    ("prime", { types := [.string, .integer] }),
    ("data", { types := [.array] }),
    ("identifiers", { types := [.object] }),
    ("hints", { types := [.object] }),
    ("reference_manager", {
      types := [.object]
      required := ["references"]
      members := [("references", { types := [.array] })] }),
    ("builtins", { types := [.array], items := some { types := [.string] } }),
    ("main_scope", { types := [.string] }),
    ("attributes", { types := [.array] }),
    ("compiler_version", { types := [.string] }),
    ("debug_info", { types := [.object, .null] })]

/-- The violations of the layout by a document, in the order of their places. -/
def violations (d : Document) : List (Violation Document) :=
  Schema.inOrder (layout.violations [] d)

/-- Refuses a document that breaks the layout. -/
def checkLayout (room : Room) (d : Document) : Except LoadFailure Unit :=
  match violations d with
  | [] => .ok ()
  | first :: rest => (LoadError.layout room first rest).fail

end FieldProgram.Artifact

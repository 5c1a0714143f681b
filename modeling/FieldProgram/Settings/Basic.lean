import FieldProgram.Record.Field
import FieldProgram.Schema.Basic

/-!
# Settings of the loader

The entry point, the prime that artifacts must have, and what is logged. A document of settings is
checked twice: against `Settings.layout`, which fixes the members and their types, and by
`Settings.check`, which reads them and takes the defaults for what is missing.
-/

namespace FieldProgram

/-- What is logged: the least level, and whether everything is. -/
structure LogSettings where
  level : Text := "info"
  verbose : Bool := false
  deriving DecidableEq, Repr

structure Settings where
  entrypoint : Text := "main"
  /-- The prime that artifacts must have, if any. -/
  expectedPrime : Option Int := none
  logging : LogSettings := {}
  deriving DecidableEq, Repr

namespace Settings

/-! ## Layout -/

/-- The names of the levels. -/
def levels : List String := ["debug", "info", "warning", "error", "critical"]

/-- The layout of a document of settings, which has no other members. -/
def layout : Schema where
  types := [.object]
  members := [
    ("entrypoint", { types := [.string], nonEmpty := true }),
    ("expected_prime", { types := [.string, .integer, .null] }),
    ("logging", {
      types := [.object]
      members := [
        ("level", { types := [.string], choices := some levels }),
        ("verbose", { types := [.boolean] })]
      closed := true })]
  closed := true

variable {ν : Type} [Layered ν]

/-- The violations of the layout, in the order of their places. -/
def violations (v : ν) : List (Violation ν) := Schema.inOrder (layout.violations [] v)

/-! ## Members -/

/-- An integer literal above one. -/
def checkPrime (v : ν) : Checked Int :=
  (Field.literal v).ensure fun p => if p ≤ 1 then some .primeTooSmall else none

def checkLogging : ν → Checked LogSettings :=
  Field.record "LoggingConfig" fun ms =>
    ((Field.optional "level" ("info" : Text) Field.string ms).both
      (Field.optional "verbose" false Field.truth ms)).map fun (level, verbose) => ⟨level, verbose⟩

/-- The settings of a document. -/
def check : ν → Checked Settings :=
  Field.record "LoaderConfig" fun ms =>
    ((Field.optional "entrypoint" ("main" : Text) Field.nonEmptyString ms).both
      ((Field.optional "expected_prime" none (Field.nullable checkPrime) ms).both
        (Field.optional "logging" {} checkLogging ms))).map
      fun (entrypoint, expectedPrime, logging) => ⟨entrypoint, expectedPrime, logging⟩

end Settings

end FieldProgram

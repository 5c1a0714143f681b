import FieldProgram.Entries
import FieldProgram.Record.Field

/-!
# Hints

A hint is code attached to a program counter, with the scopes it sees, the state of the allocation
pointer, and the references it names by their index. The code is never interpreted.
-/

namespace FieldProgram

open Numeral

/-- The state of the allocation pointer: a group and an offset inside it. -/
structure ApTracking where
  group : Int := 0
  offset : Int := 0
  deriving DecidableEq, Repr

structure Hint where
  code : Text
  scopes : List Text := []
  apTracking : ApTracking := {}
  /-- Names of references with their indices, each name once. -/
  referenceIds : List (Text × Int) := []
  deriving DecidableEq, Repr

/-! ## Documents -/

namespace ApTracking

/-- The display of the state of the allocation pointer. -/
def shown (t : ApTracking) : Except Limit String := do
  return "ApTracking(group=" ++ (← decimalText t.group) ++ ", offset=" ++
    (← decimalText t.offset) ++ ")"

def encode (t : ApTracking) : Document :=
  .map [("group", .int t.group), ("offset", .int t.offset)]

def check : Document → Checked ApTracking :=
  Field.record "ApTrackingRecord" fun ms =>
    ((Field.required "group" Field.natural ms).both
      (Field.required "offset" Field.natural ms)).map fun (group, offset) => ⟨group, offset⟩

end ApTracking

namespace Hint

def encode (h : Hint) : Document :=
  .map [
    ("code", .str h.code),
    ("accessible_scopes", .list (h.scopes.map .str)),
    ("flow_tracking_data", .map [
      ("ap_tracking", h.apTracking.encode),
      ("reference_ids", .map (h.referenceIds.map fun (name, index) => (name, .int index)))])]

/-- The first name with a negative index. -/
def firstNegative? (ids : List (Text × Int)) : Option Text :=
  (ids.find? fun id => id.2 < 0).map Prod.fst

/-- Names of references with indices from zero on. -/
def checkReferenceIds (d : Document) : Checked (List (Text × Int)) :=
  (Field.mapOf Field.integer d).ensure fun ids => (firstNegative? ids).map .negativeReference

/-- The flow of a hint: the allocation pointer and the references. -/
def checkFlow : Document → Checked (ApTracking × List (Text × Int)) :=
  Field.record "FlowTrackingRecord" fun ms =>
    (Field.required "ap_tracking" ApTracking.check ms).both
      (Field.optional "reference_ids" [] checkReferenceIds ms)

def check : Document → Checked Hint :=
  Field.record "HintRecord" fun ms =>
    ((Field.required "code" Field.string ms).both
      ((Field.optional "accessible_scopes" [] (Field.listOf Field.string) ms).both
        (Field.required "flow_tracking_data" checkFlow ms))).map
      fun (code, scopes, apTracking, ids) => ⟨code, scopes, apTracking, ids⟩

/-- Whether two hints agree, their names of references in any order. -/
def agree (a b : Hint) : Bool :=
  a.code == b.code && a.scopes == b.scopes && a.apTracking == b.apTracking &&
    Entries.agreeBy (· == ·) a.referenceIds b.referenceIds

end Hint

end FieldProgram

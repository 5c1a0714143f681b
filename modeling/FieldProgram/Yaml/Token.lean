import FieldProgram.Yaml.Fault

/-!
# Tokens of YAML

The marks, names and scalars that a text is made of. The bounds of block collections, which only
indentation shows in the text, are tokens too.
-/

namespace FieldProgram.Yaml

/-- A tag as written: a handle, unless the tag is written in full, and what follows it. -/
structure TagName where
  handle : Option String
  rest : String
  deriving DecidableEq, Repr

/-- What a line that starts with a percent sign says. -/
inductive Directive
  /-- The major version of the language. -/
  | version (major : Nat)
  /-- What a handle of tags stands for. -/
  | handle (name expansion : String)
  | other (name : String)
  deriving DecidableEq, Repr

inductive Token
  | directive (d : Directive)
  | documentStart
  | documentEnd
  | streamEnd
  | blockSequenceStart
  | blockMappingStart
  | blockEnd
  | flowSequenceStart
  | flowSequenceEnd
  | flowMappingStart
  | flowMappingEnd
  | blockEntry
  | flowEntry
  | key
  | value
  | alias (name : String)
  | anchor (name : String)
  | tag (name : TagName)
  | scalar (plain : Bool) (text : Text)
  /-- The place from which on nothing can be read, because of a value that does not exist. It is a
  fault only of a reader that gets there. -/
  | broken (f : ValueFault)
  deriving DecidableEq, Repr

end FieldProgram.Yaml

import FieldProgram.Yaml.Token

/-!
# Tokens in brackets

The tokens of a value that is written in brackets throughout: scalars, and lists and mappings with
their brackets and commas.

* `IsItem`, `IsItems`, `IsMembers`: the tokens of a value, of the items of a list and of the members
  of a mapping with these keys.
-/

namespace FieldProgram.Yaml

/-- The tokens of a key with its colon. On more than one line, or from too far back, the colon does
not make a key of the scalar. -/
inductive IsKey : Text → List Token → Prop
  | marked (t : Text) : IsKey t [.key, .scalar false t, .value]
  | bare (t : Text) : IsKey t [.scalar false t, .value]

mutual

/-- The tokens of a value. -/
inductive IsItem : List Token → Prop
  | scalar (plain : Bool) (t : Text) : IsItem [.scalar plain t]
  | emptyList : IsItem [.flowSequenceStart, .flowSequenceEnd]
  | list {ts : List Token} (items : IsItems ts) : IsItem (.flowSequenceStart :: ts)
  | emptyMap : IsItem [.flowMappingStart, .flowMappingEnd]
  | map {keys : List Text} {ts : List Token} (members : IsMembers keys ts) :
    IsItem (.flowMappingStart :: ts)

/-- The tokens of the items of a list, and of its closing bracket. -/
inductive IsItems : List Token → Prop
  | last {ts : List Token} (item : IsItem ts) : IsItems (ts ++ [.flowSequenceEnd])
  | more {ts us : List Token} (item : IsItem ts) (others : IsItems us) :
    IsItems (ts ++ .flowEntry :: us)

/-- The tokens of the members of a mapping, and of its closing bracket. -/
inductive IsMembers : (keys : List Text) → List Token → Prop
  | last {t : Text} {key ts : List Token} (name : IsKey t key) (value : IsItem ts) :
    IsMembers [t] (key ++ ts ++ [.flowMappingEnd])
  | more {t : Text} {keys : List Text} {key ts us : List Token} (name : IsKey t key)
    (value : IsItem ts) (others : IsMembers keys us) :
    IsMembers (t :: keys) (key ++ ts ++ .flowEntry :: us)

end

end FieldProgram.Yaml

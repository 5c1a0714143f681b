/-!
# Files

A path leads to a file, to a folder or to nothing. It is shown without parts that lead nowhere,
such as single dots and repeated slashes. Names and paths have a greatest length, and a path beyond
it cannot even be looked up.
-/

namespace FieldProgram

/-- A path in parts, none of them empty or a single dot. It starts at a root, which is a slash or
two, or where one is. -/
structure FilePath where
  root : String
  parts : List String
  deriving DecidableEq, Repr

/-- Splits a text at each slash. -/
def splitSlash : List Char → List (List Char)
  | [] => [[]]
  | c :: cs =>
    if c = '/' then [] :: splitSlash cs
    else
      match splitSlash cs with
      | [] => [[c]]
      | part :: parts => (c :: part) :: parts

namespace FilePath

/-- The root that a number of slashes in front stands for. Only two are not the same as one. -/
def rootOf (slashes : Nat) : String :=
  if slashes = 0 then "" else if slashes = 2 then "//" else "/"

def ofString (s : String) : FilePath where
  root := rootOf (s.toList.takeWhile (· = '/')).length
  parts := ((splitSlash s.toList).map String.ofList).filter fun part => part ≠ "" ∧ part ≠ "."

/-- The path as text. -/
def text (p : FilePath) : String :=
  if p.root = "" ∧ p.parts = [] then "." else p.root ++ "/".intercalate p.parts

end FilePath

/-- What a path may lead to. -/
inductive Entry
  | file (octets : List UInt8)
  | folder
  deriving DecidableEq, Repr

/-- What each path leads to, if it leads anywhere. -/
abbrev Files := FilePath → Option Entry

/-! ## Lengths -/

/-- The most octets of a name. -/
def maxNameSize : Nat := 255

/-- The most octets of a path. -/
def maxPathSize : Nat := 4095

/-- Whether one of the parts left is too long for a name, those before it being folders. -/
def Files.meetsLongName (files : Files) (root : String) : (before left : List String) → Bool
  | _, [] => false
  | before, part :: parts =>
    maxNameSize < part.utf8ByteSize ||
      (files ⟨root, before ++ [part]⟩ == some .folder &&
        files.meetsLongName root (before ++ [part]) parts)

/-- Whether a path is too long to be looked up. One with a null character leads nowhere in any
case. -/
def Files.isTooLong (files : Files) (p : FilePath) : Bool :=
  !p.text.toList.contains '\x00' &&
    (maxPathSize < p.text.utf8ByteSize || files.meetsLongName p.root [] p.parts)

/-! ## Lists -/

/-- The files and folders of a list; no other path leads anywhere. -/
def Files.ofList (entries : List (FilePath × Entry)) : Files := fun path => entries.lookup path

end FieldProgram

import FieldProgram.Text.DecimalDigit

/-!
# Options of the command line

Words that start with a dash are options, up to a word of two dashes. An option may be shortened as
long as it stays the only one of its start; its value follows behind an equals sign or as the next
word. Negative numbers and words with spaces are no options. The first run of other words names the
command and the artifact.
-/

namespace FieldProgram.CommandLine

/-! ## Options -/

inductive Flag
  | help
  | json
  | verbose
  deriving DecidableEq, Repr

/-- The settings that an option gives a value to. -/
inductive Setting
  | entrypoint
  | config
  | expectedPrime
  deriving DecidableEq, Repr

/-- An option stands for itself, or it takes a value. -/
inductive Opt
  | flag (f : Flag)
  | setting (s : Setting)
  deriving DecidableEq, Repr

/-- The options by name. -/
def options : List (String × Opt) :=
  [("-h", .flag .help), ("--help", .flag .help), ("--entrypoint", .setting .entrypoint),
    ("--config", .setting .config), ("--expected-prime", .setting .expectedPrime),
    ("--json", .flag .json), ("--verbose", .flag .verbose)]

/-! ## Words -/

/-- What is written behind the name of an option in the same word. -/
inductive Attached
  | nothing
  /-- Behind an equals sign. -/
  | value (s : String)
  /-- Directly behind the single letter of an option. -/
  | tail (cs : List Char)
  deriving DecidableEq, Repr

/-- A word by the part it plays. -/
inductive Arg
  | positional (s : String)
  /-- Two dashes that end the options. -/
  | separator
  | option (o : Opt) (attached : Attached)
  /-- An option that there is none of. -/
  | unknown
  deriving DecidableEq, Repr

/-- Whether digits follow in the form of a number, with a point or without. -/
def isNumber (cs : List Char) : Bool :=
  let rest := cs.dropWhile Text.isDecimalDigit
  match rest with
  | [] => cs ≠ []
  | '.' :: ds => ds ≠ [] && ds.all Text.isDecimalDigit
  | _ => false

/-- Whether a word is a negative number; a line feed may end it. -/
def isNegativeNumber : List Char → Bool
  | '-' :: cs => isNumber (if cs.getLast? = some '\n' then cs.dropLast else cs)
  | _ => false

/-- The part of a word before its first equals sign, and the part behind. -/
def splitEquals (cs : List Char) : List Char × Option String :=
  match cs.dropWhile (· != '=') with
  | _ :: value => (cs.takeWhile (· != '='), some (String.ofList value))
  | [] => (cs, none)

def attachedOf : Option String → Attached
  | none => .nothing
  | some s => .value s

/-- The options that a word of two dashes may be short for. -/
def shortFor (start : List Char) : List Opt :=
  (options.filter fun (name, _) => start.isPrefixOf name.toList).map Prod.snd

/-- The part of a word that starts with a dash and is no option by its full name. Nothing is said
of a word that may be short for several options. -/
def abbreviated? (word : String) (cs : List Char) : Option Arg :=
  let unmatched := if isNegativeNumber cs || cs.contains ' ' then .positional word else .unknown
  match cs with
  | '-' :: '-' :: _ =>
    let (start, value) := splitEquals cs
    match shortFor start with
    | [] => some unmatched
    | [o] => some (.option o (attachedOf value))
    | _ => none
  | '-' :: c :: tail =>
    match options.lookup (String.ofList ['-', c]) with
    | some o => some (.option o (.tail tail))
    | none => some unmatched
  | _ => some unmatched

/-- The part of a word before the separator. -/
def classify? (word : String) : Option Arg :=
  let cs := word.toList
  if cs.head? ≠ some '-' || cs = ['-'] then some (.positional word)
  else
    match options.lookup word, splitEquals cs with
    | some o, _ => some (.option o .nothing)
    | none, (name, some value) =>
      match options.lookup (String.ofList name) with
      | some o => some (.option o (.value value))
      | none => abbreviated? word cs
    | none, (_, none) => abbreviated? word cs

/-- The parts of all words. Nothing is said if one may be short for several options. -/
def classifyAll? : List String → Option (List Arg)
  | [] => some []
  | w :: ws =>
    if w = "--" then some (.separator :: ws.map .positional)
    else do
      let a ← classify? w
      let as ← classifyAll? ws
      return a :: as

/-! ## Reading options -/

/-- What the words ask for. -/
structure Options where
  command : Option String := none
  artifact : Option String := none
  entrypoint : Option String := none
  config : Option String := none
  expectedPrime : Option String := none
  json : Bool := false
  verbose : Bool := false
  deriving DecidableEq, Repr

/-- How reading the words ends. -/
inductive Parsed
  | options (o : Options)
  /-- Help was asked for. -/
  | help
  | misuse
  deriving DecidableEq, Repr

/-- Gives a value to a setting; the last value counts. -/
def Options.set (o : Options) (value : String) : Setting → Options
  | .entrypoint => { o with entrypoint := some value }
  | .config => { o with config := some value }
  | .expectedPrime => { o with expectedPrime := some value }

/-- Reads as many separators as there are. -/
def separators : List Arg → List Arg × List Arg
  | .separator :: as =>
    let (ss, rest) := separators as
    (.separator :: ss, rest)
  | as => ([], as)

/-- The text of a word that is no option. -/
def Arg.text : Arg → String
  | .positional s => s
  | _ => "--"

/-- Reads a place of the words that are no options: one word at most, with separators around. The
first word of two dashes is taken out, and what is left is the word. -/
def place (as : List Arg) : Option String × List Arg :=
  let (front, as) := separators as
  let (word, as) := match as with
    | .positional s :: as => ([Arg.positional s], as)
    | as => ([], as)
  let (back, as) := separators as
  (((front ++ word ++ back).map Arg.text |>.erase "--").head?, as)

/-- What is known while the words are read. -/
structure State where
  options : Options := {}
  /-- Whether the command and the artifact have been read. -/
  placed : Bool := false
  /-- Whether there was a word too many. -/
  extra : Bool := false

/-- Reads the command and the artifact from the words at hand. -/
def State.fill (s : State) (as : List Arg) : State × List Arg :=
  let (command, as) := place as
  let (artifact, as) := place as
  ({ s with options := { s.options with command, artifact }, placed := true }, as)

/-- Whether letters behind `-h` end in help: each is an option of its own, of which there is only
help, and neither a dash nor an equals sign may follow. -/
def helpTail : List Char → Bool
  | [] => true
  | ['h'] => true
  | 'h' :: '=' :: _ => false
  | 'h' :: cs => helpTail cs
  | c :: _ => c != '-'

/-- Reads a flag. Only the letter for help may have something attached. -/
def State.flag (s : State) (attached : Attached) : Flag → Except Parsed State
  | .help =>
    match attached with
    | .nothing => .error .help
    | .value _ => .error .misuse
    | .tail cs => .error (if helpTail cs then .help else .misuse)
  | .json =>
    if attached = .nothing then .ok { s with options := { s.options with json := true } }
    else .error .misuse
  | .verbose =>
    if attached = .nothing then .ok { s with options := { s.options with verbose := true } }
    else .error .misuse

/-- Whether an option is among the words. -/
def Arg.isOption : Arg → Bool
  | .option .. => true
  | .unknown => true
  | _ => false

/-- What the words ask for once no option is left. -/
def State.finish (s : State) (as : List Arg) : Parsed :=
  let (s, as) := if s.placed then (s, as) else s.fill as
  if s.extra || !as.isEmpty then .misuse else .options s.options

/-- Reads words up to the last option. Each step takes a word at least. -/
def readFrom : (fuel : Nat) → State → List Arg → Parsed
  | 0, s, as => s.finish as
  | fuel + 1, s, as =>
    if !as.any Arg.isOption then s.finish as
    else
      match as with
      | .option (.flag f) attached :: as =>
        match s.flag attached f with
        | .ok s => readFrom fuel s as
        | .error p => p
      | .option (.setting t) (.value v) :: as =>
        readFrom fuel { s with options := s.options.set v t } as
      | .option (.setting t) _ :: .positional v :: as =>
        readFrom fuel { s with options := s.options.set v t } as
      | .option (.setting _) _ :: _ => .misuse
      | .unknown :: as => readFrom fuel { s with extra := true } as
      | as =>
        if s.placed then readFrom fuel { s with extra := true } (as.dropWhile (!·.isOption))
        else
          let (s, as) := s.fill as
          readFrom fuel s as

/-- Reads the words of a command line. -/
def read (words : List String) : Parsed :=
  match classifyAll? words with
  | none => .misuse
  | some as => readFrom (as.length + 1) {} as

end FieldProgram.CommandLine

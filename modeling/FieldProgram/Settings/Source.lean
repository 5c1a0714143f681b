import FieldProgram.Files
import FieldProgram.Settings.Basic
import FieldProgram.Text.Utf8
import FieldProgram.Yaml.Read

/-!
# Settings in files

Settings are a YAML document in UTF-8. A vacant document stands for no settings.
-/

namespace FieldProgram

open Numeral

/-- Why a file holds no settings. -/
inductive SettingsError
  | fileNotFound (path : String)
  | isDirectory (path : String)
  | notYaml (path : String) (fault : Yaml.Fault)
  /-- The document breaks its layout, first at `first`, as found in the given room. -/
  | layout (room : Room) (first : Violation Yaml.Value) (rest : List (Violation Yaml.Value))
  | invalid (path : String) (faults : List RecordFault)

/-- A fault of the settings, octets that are no text, a value that does not exist, or a limit that
is met in an error. -/
inductive SettingsFailure
  | rejected (e : SettingsError)
  | undecodable (e : Text.DecodeError)
  | value (f : Yaml.ValueFault)
  | limit (l : Limit)

/-- What is wrong with a YAML text. -/
def Yaml.Fault.message : Yaml.Fault → String
  | .unprintable _ => "special characters are not allowed"
  | .token what => "while scanning a " ++ what
  | .structure expected => "expected " ++ expected
  | .directive name => "bad directive " ++ name
  | .undefinedHandle handle => "found undefined tag handle " ++ Text.quoted handle
  | .undefinedAlias name => "found undefined alias " ++ Text.quoted name
  | .repeatedAnchor name => "found duplicate anchor " ++ Text.quoted name
  | .undefinedTag tag => "could not determine a constructor for the tag " ++ Text.quoted tag
  | .wrongNode tag => "found a node of another kind than its tag " ++ Text.quoted tag
  | .unhashableKey => "found unhashable key"
  | .badMerge => "expected a mapping or list of mappings for merging"
  | .badBinary => "failed to decode base64 data"

namespace SettingsError

/-- The wording of an error, unless a limit is met on the way. -/
def message : SettingsError → Except Limit String
  | fileNotFound path => .ok ("Config file not found: " ++ path)
  | isDirectory path =>
    .ok ("Failed to load config " ++ path ++ ": [Errno 21] Is a directory: " ++ Text.quoted path)
  | notYaml path fault => .ok ("Failed to load config " ++ path ++ ": " ++ fault.message)
  | layout room first rest =>
    Violation.report room "Loader config validation failed:" (first :: rest)
  | invalid path faults =>
    .ok ("Invalid loader config " ++ path ++ ": " ++ RecordFault.describe faults)

/-- Fails with an error, or with the limit that is met where the error cannot be worded. -/
def fail {α : Type} (e : SettingsError) : Except SettingsFailure α :=
  match e.message with
  | .ok _ => .error (.rejected e)
  | .error l => .error (.limit l)

end SettingsError

namespace Settings

/-- The value of octets that hold YAML, of which a vacant one counts as an empty mapping. -/
def readOctets (room : Room) (path : String) (octets : List UInt8) :
    Except SettingsFailure Yaml.Value :=
  match Text.Utf8.decode octets with
  | .error e => .error (.undecodable e)
  | .ok cs =>
    match Yaml.read room (Yaml.plainBreaksOf cs) with
    | .error (.malformed fault) => (SettingsError.notYaml path fault).fail
    | .error (.value fault) => .error (.value fault)
    | .ok v => .ok (if v.isVacant then .emptyMap else v)

/-- Refuses a document that breaks the layout. -/
def checkLayout (room : Room) (v : Yaml.Value) : Except SettingsFailure Unit :=
  match violations v with
  | [] => .ok ()
  | first :: rest => (SettingsError.layout room first rest).fail

/-- The document of a file of settings, of which the layout is in order. -/
def readDocument (room : Room) (files : Files) (path : FilePath) :
    Except SettingsFailure Yaml.Value := do
  match files path with
  | none => (SettingsError.fileNotFound path.text).fail
  | some .folder => (SettingsError.isDirectory path.text).fail
  | some (.file octets) =>
    let v ← readOctets room path.text octets
    checkLayout room v
    return v

/-- The settings of a document. -/
def ofDocument {ν : Type} [Layered ν] (path : String) (d : ν) : Except SettingsFailure Settings :=
  match (check d).toExcept with
  | .ok s => .ok s
  | .error faults => (SettingsError.invalid path faults).fail

/-- The settings in a file, read in the given room. -/
def load (room : Room) (files : Files) (path : FilePath) : Except SettingsFailure Settings := do
  let v ← readDocument room files path
  ofDocument path.text v

/-- A file of settings to start from. -/
def sample : String :=
  "entrypoint: main\n" ++
    "expected_prime: '0x800000000000011000000000000000000000000000000000000000000000001'\n" ++
    "logging:\n  level: info\n  verbose: false\n"

end Settings

end FieldProgram

import FieldProgram.CommandLine.Run

/-!
# The program

Reads the files that the options name, runs the command line on them, prints what it prints and
writes the log to the error output.
-/

namespace FieldProgram.CommandLine

def helpText : String :=
  "usage: inspect [-h] [--entrypoint ENTRYPOINT] [--config CONFIG]\n" ++
    "               [--expected-prime EXPECTED_PRIME] [--json] [--verbose]\n" ++
    "               artifact\n\n" ++
    "Load and inspect compiled program artifacts.\n\n" ++
    "  artifact          path to the compiled program\n" ++
    "  -h, --help        show this help\n" ++
    "  --entrypoint      function under __main__ whose pc becomes main\n" ++
    "  --config          path to a file of settings\n" ++
    "  --expected-prime  refuse artifacts of another prime, hexadecimal or decimal\n" ++
    "  --json            print the program as an artifact\n" ++
    "  --verbose         log everything\n"

/-- The paths that the words name. -/
def pathsOf (words : List String) : List FilePath :=
  match read words with
  | .options o => (o.artifact.toList ++ o.config.toList).map FilePath.ofString
  | _ => []

/-- What a path leads to. What cannot be read as a file counts as a folder. -/
def readEntry (path : FilePath) : IO (Option Entry) := do
  try
    let bytes ← IO.FS.readBinFile path.text
    return some (.file bytes.toList)
  catch
    | .noFileOrDirectory .. => return none
    | _ => return some .folder

/-- What the given paths lead to. -/
def readFiles (paths : List FilePath) : IO Files := do
  let entries ← paths.filterMapM fun path => do
    return (← readEntry path).map (path, ·)
  return Files.ofList entries

end FieldProgram.CommandLine

open FieldProgram FieldProgram.CommandLine in
def main (words : List String) : IO UInt32 := do
  let files ← readFiles (pathsOf words)
  match run .standard files words with
  | .ok outcome =>
    (← IO.getStderr).putStr (Log.text outcome.log).replaced
    match outcome.output with
    | .help => IO.print helpText
    | .text t => IO.print t.replaced
    return UInt32.ofNat outcome.exit
  | .error crash =>
    (← IO.getStderr).putStrLn crash.message
    return 1

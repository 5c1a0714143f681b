import FieldProgram.Artifact.Load
import FieldProgram.Files
import FieldProgram.Json.Reader
import FieldProgram.Text.Sniffed

/-!
# Where artifacts come from

An artifact is a text or octets, given as such, through a stream, or in a file. Reading one yields
a document; a key that stands twice in one object is refused.
-/

namespace FieldProgram.Artifact

open Log

/-- An artifact as it is written. -/
inductive Content
  | text (t : Text)
  | octets (bs : List UInt8)
  deriving DecidableEq, Repr

/-- Where an artifact comes from. -/
inductive Source
  | content (c : Content)
  | stream (c : Content)
  | file (path : FilePath)
  deriving DecidableEq, Repr

/-- The document of a text, read as `read` does. -/
def readText (read : List Code → Except Json.ReadError Document) (cs : List Code) :
    Except LoadFailure Document :=
  match read cs with
  | .ok d => .ok d
  | .error e => (LoadError.notJson cs e).fail

/-- The document that is written. A decoded text has no byte order mark left to complain about. -/
def Content.document (room : Room) : Content → Except LoadFailure Document
  | .text t => readText (Json.readMarked .rejectRepeated room.brackets) t.codes
  | .octets bs =>
    match Text.decodeSniffed bs with
    | .ok cs => readText (Json.read .rejectRepeated room.brackets) cs
    | .error e => (LoadError.undecodable e).fail

/-- The document of a source. What is read from a stream or a file is decoded one call further in
than what is given as it is. -/
def Source.document (room : Room) (files : Files) : Source → Run LoadFailure Document
  | .content c => Run.ofExcept (c.document room.inner)
  | .stream c => do
    note .info "Loading program artifact from <stream>"
    Run.ofExcept (c.document room.inner.inner)
  | .file path =>
    match files path with
    | none => Run.ofExcept (LoadError.fileNotFound path.text).fail
    | some entry => do
      note .info ("Loading program artifact " ++ path.text)
      match entry with
      | .folder => Run.ofExcept (LoadError.isDirectory path.text).fail
      | .file octets => Run.ofExcept ((Content.octets octets).document room.inner.inner)

/-- The program of a source. -/
def Source.load (room : Room) (files : Files) (source : Source) (entrypoint : Text)
    (expected : Option Int) : Run LoadFailure Program := do
  let d ← source.document room files
  Artifact.load room.inner d entrypoint expected

end FieldProgram.Artifact

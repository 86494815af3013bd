import EntityGraph.Failure
import EntityGraph.Settings.Text

/-!
Settings kept in a file, and how reading and writing it fails.
-/

namespace EntityGraph.Settings

/-- The name of the settings file. -/
def fileName : String := "stratagraph.toml"

/-- What is found at a path. -/
inductive Place
  /-- Not even the directory. -/
  | noDirectory
  | noFile
  | file (bytes : ByteArray)
  deriving Inhabited

/-- The text of the file, if there is one and it is text. -/
def Place.text? : Place → Option String
  | .file bytes => String.fromUTF8? bytes
  | _ => none

/-- The file with a text. -/
def Place.ofText (text : String) : Place := .file text.toUTF8

/-- Why nothing is found where nothing is. -/
def notThere : String := "No such file or directory (os error 2)"

/-- A step on the file at `path` that fails. -/
def failed (step path : String) (cause : String) : Failure :=
  .config s!"Failed to {step} config file '{path}'{cause}"

/-- Reads the settings. -/
def load (path : String) : Place → Except Failure Settings
  | .noDirectory | .noFile => .error (failed "read" path (": " ++ notThere))
  | .file bytes =>
    match String.fromUTF8? bytes with
    | none => .error (failed "read" path ": stream did not contain valid UTF-8")
    | some text =>
      match ofText? text with
      | none => .error (failed "parse" path "")
      | some s => .ok s

/-- Writes a text. -/
def store (step path text : String) : Place → Except Failure Place
  | .noDirectory => .error (failed step path (": " ++ notThere))
  | _ => .ok (.ofText text)

/-- Writes the settings. -/
def save (path : String) (s : Settings) (p : Place) : Except Failure Place :=
  store "write" path s.toText p

/-- Writes the default settings unless there is a file. -/
def saveDefaultIfMissing (path : String) : Place → Except Failure Place
  | .file bytes => .ok (.file bytes)
  | p => store "write default" path defaultText p

end EntityGraph.Settings

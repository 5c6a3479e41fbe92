import Componentry.Config
import Componentry.Document.Basic
import Componentry.Json.Reader
import Componentry.Path
import Componentry.Yaml.Value
/-!
# Document files

The extension of a file says in which format its document is written.  Where it does not, the
document is read as JSON, and as YAML if that fails for whatever reason.
-/

namespace Componentry

/-- The formats of documents. -/
inductive DocumentFormat where
  | json
  | yaml
  deriving DecidableEq, Repr

/-- The format that the extension of a path stands for. -/
def DocumentFormat.ofPath? (path : Path) : Option DocumentFormat :=
  match path.extension?.map Text.lower with
  | some "json" => some .json
  | some "yaml" | some "yml" => some .yaml
  | _ => none

/-- Why a file holds no document. -/
inductive DocumentFileError where
  /-- The file could not be read. -/
  | unreadable (path : Path) (fault : ReadFault)
  /-- The file is written in the format that its extension stands for, but is no document. -/
  | invalid (error : DocumentError)
  /-- The file is no document in any format. -/
  | unsupported (path : Path) (error : DocumentError)
  deriving DecidableEq, Repr

/-- The wording of an error, followed by that of what caused it. -/
def DocumentFileError.messages : DocumentFileError → List String
  | .unreadable path fault => ["Failed to read document file: " ++ path, fault.message]
  | .invalid error => error.messages
  | .unsupported path error => ("Unsupported document format: " ++ path) :: error.messages

namespace Document

/-- The document that a text is in a format. -/
def ofText (format : DocumentFormat) (text : String) : Except DocumentError Document :=
  match format with
  | .json =>
    match Json.ofText? text with
    | some v => ofJson v
    | none => .error .malformedJson
  | .yaml =>
    match Yaml.value? text with
    | some v => ofJson v
    | none => .error .malformedYaml

/-- The document in a file that was read or could not be. -/
def ofFile (path : Path) : Except ReadFault String → Except DocumentFileError Document
  | .error fault => .error (.unreadable path fault)
  | .ok text =>
    match DocumentFormat.ofPath? path with
    | some format => (ofText format text).mapError .invalid
    | none =>
      match ofText .json text with
      | .ok document => .ok document
      | .error _ => (ofText .yaml text).mapError (.unsupported path)

end Document

end Componentry

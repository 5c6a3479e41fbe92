import Componentry.Json.Basic
/-!
# Documents

A document is an object.  Its sections `app`, `session` and `style`, where they are there, are
objects too: the two stores to start with, and the named bundles of attributes.  The root node is
the member `view`, or the document itself where there is none.
-/

namespace Componentry

/-- Why a value or a text is no document. -/
inductive DocumentError where
  /-- The text is not JSON. -/
  | malformedJson
  /-- The text is not YAML. -/
  | malformedYaml
  | notAnObject
  | malformedSection (key : String)
  deriving DecidableEq, Repr

/-- The wording of an error. -/
def DocumentError.message : DocumentError → String
  | .malformedJson => "document is not valid JSON"
  | .malformedYaml => "document is not valid YAML"
  | .notAnObject => "document root must be an object"
  | .malformedSection key => "'" ++ key ++ "' must be an object"

/-- The wording of an error, followed by that of what caused it. -/
def DocumentError.messages (e : DocumentError) : List String :=
  match e with
  | .malformedJson | .malformedYaml => [e.message, "the text is malformed"]
  | .notAnObject | .malformedSection _ => [e.message]

/-- A document. -/
structure Document where
  members : Attributes
  deriving DecidableEq, Repr

namespace Document

/-- The sections that have to be objects. -/
def sections : List String := ["app", "session", "style"]

/-- The document that a value is. -/
def ofJson : Json → Except DocumentError Document
  | .object members =>
    match sections.find? fun key => (members.lookup key).any fun v => !v.isObject with
    | some key => .error (.malformedSection key)
    | none => .ok ⟨members⟩
  | _ => .error .notAnObject

/-- The members of a section; a missing one has none. -/
def sectionOf (document : Document) (key : String) : Attributes :=
  ((Keyed.lookup document.members key).bind Json.object?).getD []

/-- The app store to start with. -/
def app (document : Document) : Attributes := document.sectionOf "app"

/-- The session store to start with. -/
def session (document : Document) : Attributes := document.sectionOf "session"

/-- The named bundles of attributes; a style that is no object is none. -/
def styles (document : Document) : Keyed String Attributes :=
  (document.sectionOf "style").filterMap fun style => style.2.object?.map fun v => (style.1, v)

/-- The members of the root node. -/
def rootNode (document : Document) : Attributes :=
  match Keyed.lookup document.members "view" with
  | some (.object view) => view
  | _ => document.members

/-- The value that a document is. -/
def toJson (document : Document) : Json := .object document.members

end Document

end Componentry

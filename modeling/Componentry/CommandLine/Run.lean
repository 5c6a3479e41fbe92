import Componentry.CommandLine.Arguments
import Componentry.Document.File
import Componentry.Redaction
import Componentry.Session.Schedule
/-!
# Running commands

`Invocation.run` does what a command line asks for, given the files it may read.  Its `Answer` is
either a value to be printed or a failure: a message and the messages of what caused it, which
`Failure.report` puts into one text.

Sessions run with a host that answers every load at once with the request itself, the secrets in
its headers left out, and that accepts every function call.
-/

namespace Componentry.CommandLine

/-- What went wrong, followed by what caused it. -/
abbrev Failure : Type := List String

namespace Failure

/-- A message of several lines, all but the first indented. -/
def indented (indentation : String) (message : String) : String :=
  ("\n" ++ indentation).intercalate ((Text.splitOn '\n' message.toList).map String.ofList)

/-- The causes with their numbers, from a number on. -/
def numbered (start : Nat) : List String → String
  | [] => ""
  | message :: rest =>
    "\n" ++ String.ofList (List.replicate (5 - (toString start).length) ' ') ++ toString start
      ++ ": " ++ indented "       " message ++ numbered (start + 1) rest

/-- The text of a failure; several causes are numbered. -/
def report : Failure → String
  | [] => ""
  | [message] => "Error: " ++ message
  | [message, cause] => "Error: " ++ message ++ "\n\nCaused by:\n    " ++ indented "    " cause
  | message :: causes => "Error: " ++ message ++ "\n\nCaused by:" ++ numbered 0 causes

end Failure

/-- What a command comes to. -/
inductive Answer where
  /-- An explanation of the program. -/
  | overview
  | output (v : Json)
  | failed (failure : Failure)

/-- How a file is read. -/
abbrev Files : Type := Path → Except ReadFault String

/-- The configuration that a command runs with; only one that is named has to be there. -/
def Invocation.engineConfig (invocation : Invocation) (environment : Environment) (files : Files) :
    Except Failure EngineConfig :=
  match invocation.config with
  | some path =>
    (EngineConfig.ofFile (files path)).mapError fun e =>
      ("Failed to load engine configuration: " ++ path) :: e.messages
  | none => .ok (EngineConfig.orDefault (EngineConfig.ofFile (files environment.engineFile)))

/-- The catalog of a configuration. -/
def catalogOf (config : EngineConfig) : Except Failure Catalog :=
  (Catalog.withBuiltins config.registry).mapError fun e =>
    ["Failed to register built-in components", e.message]

/-- The document in a file. -/
def documentAt (files : Files) (path : Path) : Except Failure Document :=
  (Document.ofFile path (files path)).mapError DocumentFileError.messages

/-- The root of a tree, if it has one. -/
def treeJson (tree : Tree) : Json := (tree.rootSnapshot?.map Snapshot.toJson).getD .null

/-- The messages of problems. -/
def problemsJson (problems : List BuildProblem) : Json :=
  .array (problems.map fun problem => .string problem.message)

/-! ### Commands -/

/-- Builds a document and shows its tree and problems. -/
def inspect (config : EngineConfig) (files : Files) (path : Path) : Except Failure Json := do
  let document ← documentAt files path
  let catalog ← catalogOf config
  let build := document.build catalog Evaluator.standard config.dispatch
  return .object [("tree", treeJson build.tree), ("errors", problemsJson build.problems)]

/-- Lists the registered types of one category or of all. -/
def types (config : EngineConfig) (category : Option Category) : Except Failure Json := do
  let catalog ← catalogOf config
  let listed (category : Category) : Json :=
    .array ((catalog.registry.registeredTypes category).map fun entry => .object [
      ("type", .string entry.typeName), ("class_name", .string entry.className)])
  return .object ((category.elim Category.all fun category => [category]).map fun category =>
    (category.name, listed category))

/-- The entity and the event that are written with a colon between them. -/
def raise? (text : String) : Option (String × String) := do
  let (source, event) ← Text.cutLast [':'] text.toList
  let source := Text.trimChars source
  let event := Text.trimChars event
  guard (source ≠ [] ∧ event ≠ [])
  return (String.ofList source, String.ofList event)

/-- The events that are to be raised, by their entities. -/
def raises (texts : List String) : Except Failure (List (String × String)) :=
  texts.mapM fun text =>
    match raise? text with
    | some raise => .ok raise
    | none => .error ["'" ++ text ++ "' is not of the form <entity>:<event>"]

/-- The host of sessions. -/
def loopback (catalog : Catalog) (config : EngineConfig) : Host where
  catalog
  evaluator := Evaluator.standard
  dispatch := config.dispatch
  transport _ request :=
    (0, .ok { request with headers := Redaction.redactHeaders request.headers : DataRequest }.toJson)
  refusal _ := none

/-- Loads a data provider. -/
def load (session : Session) (provider : String) : Except Failure Session :=
  (session.load provider).mapError fun e =>
    ("Failed to load data provider '" ++ provider ++ "'") :: e.messages

/-- Raises an event on an entity. -/
def raise (session : Session) (target : String × String) : Except Failure Session :=
  (session.raise target.1 target.2 none).mapError fun e =>
    ("Failed to raise '" ++ target.2 ++ "' on '" ++ target.1 ++ "'") :: e.messages

/-- Opens a session on a document, loads data providers, raises events, waits, and shows the
journal, the tree and the stores at the end. -/
def run (config : EngineConfig) (files : Files) (path : Path) (loads targets : List String)
    (wait : Nat) : Except Failure Json := do
  let document ← documentAt files path
  let targets ← raises targets
  let host := loopback (← catalogOf config) config
  let build := document.build host.catalog host.evaluator config.dispatch
  let opened : Schedule := { session := Session.start host build.tree }
  let session ← loads.foldlM load opened.session
  let session ← targets.foldlM raise session
  let settled := (opened.withSession session).settle
  let waited := if wait = 0 then settled else (settled.wait wait).settle
  let session := waited.session.teardown
  return .object [
    ("build_errors", problemsJson build.problems),
    ("journal", .array (session.journal.map Record.toJson)),
    ("tree", treeJson session.tree),
    ("app", .object session.tree.app),
    ("session", .object session.tree.session)]

/-- Does what an invocation asks for. -/
def Invocation.run (invocation : Invocation) (environment : Environment) (files : Files) : Answer :=
  match invocation.engineConfig environment files with
  | .error failure => .failed failure
  | .ok config =>
    let answer : Except Failure Json → Answer
      | .ok v => .output v
      | .error failure => .failed failure
    match invocation.command with
    | .overview => .overview
    | .inspect file => answer (inspect config files file)
    | .types category => answer (types config category)
    | .run file loads raises wait => answer (CommandLine.run config files file loads raises wait)

/-- The files that an invocation may read. -/
def Invocation.files (invocation : Invocation) (environment : Environment) : List Path :=
  invocation.config.getD environment.engineFile ::
    match invocation.command with
    | .inspect file | .run file _ _ _ => [file]
    | .overview | .types _ => []

end Componentry.CommandLine

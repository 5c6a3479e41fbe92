import Componentry.Event
import Componentry.Json.Decode
/-!
# The journal

The journal of a session says what became of every event: one record when it reaches its source,
then one for every action bound to it.  An `Outcome` is what a record reports.  Its JSON form is an
object whose member `outcome` names the case; a skipped one holds the reason as an object of its
own.  `Outcome.ofJson?` reads the form back, also from an array with the name in front.
-/

namespace Componentry

/-- Why an event or an action was skipped. -/
inductive SkipReason where
  | sourceSuppressed
  /-- The `enabled` gate of the source is closed. -/
  | sourceDisabled
  /-- The `enabled` gate of the action is closed. -/
  | disabled
  /-- The `if` gate of the action is closed. -/
  | conditionFalse
  /-- A gate could not be evaluated. -/
  | gateError (message : String)
  | loadInProgress
  deriving DecidableEq, Repr

/-- What became of an event or an action. -/
inductive Outcome where
  /-- The event reached its source, which binds this many actions to it. -/
  | delivered (bindings : Nat)
  | executed
  | skipped (reason : SkipReason)
  | failed (message : String)
  deriving DecidableEq, Repr

namespace SkipReason

/-- The name of a reason in values. -/
def name : SkipReason → String
  | .sourceSuppressed => "source_suppressed"
  | .sourceDisabled => "source_disabled"
  | .disabled => "disabled"
  | .conditionFalse => "condition_false"
  | .gateError _ => "predicate_error"
  | .loadInProgress => "load_in_progress"

/-- The reasons that need no detail. -/
def plain : List SkipReason :=
  [.sourceSuppressed, .sourceDisabled, .disabled, .conditionFalse, .loadInProgress]

/-- The members of the JSON form of a reason. -/
def members (reason : SkipReason) : List (String × Json) :=
  ("reason", .string reason.name) ::
    match reason with
    | .gateError message => [("detail", .string message)]
    | _ => []

/-- The reason with a name and a detail; only an error has a detail other than null. -/
def ofParts? (name : String) (detail : Option Json) : Option SkipReason :=
  if name = "predicate_error" then
    match detail with
    | some (.string message) => some (.gateError message)
    | _ => none
  else if detail = none ∨ detail = some .null then
    plain.find? fun reason => reason.name = name
  else none

/-- Reads the JSON form of a reason: an object, or an array of name and detail. -/
def ofJson? : Decoder SkipReason
  | .array [name, detail] => do ofParts? (← Decoder.name some name) (some detail)
  | .object members => do
    let r ← Decoder.fields ["reason", "detail"] (.object members)
    ofParts? (← Decoder.required r "reason" (Decoder.name some)) (r.lookup "detail")
  | _ => none

end SkipReason

namespace Outcome

/-- The members of the JSON form of an outcome. -/
def members : Outcome → List (String × Json)
  | .delivered bindings =>
    [("outcome", .string "delivered"), ("bindings", .number (.int bindings))]
  | .executed => [("outcome", .string "executed")]
  | .skipped reason => [("outcome", .string "skipped"), ("skip", .object reason.members)]
  | .failed message => [("outcome", .string "failed"), ("error", .string message)]

/-- The JSON form of an outcome. -/
def toJson (outcome : Outcome) : Json := .object outcome.members

/-- Reads the case with a name from what stands beside the name. -/
def ofParts? (name : String) (rest : Json) : Option Outcome :=
  match name with
  | "delivered" => do
    let r ← Decoder.fields ["bindings"] rest
    return .delivered (← Decoder.required r "bindings" (Decoder.natBelow (Nat.pow 2 64)))
  | "executed" => do
    let _ ← Decoder.fields [] rest
    return .executed
  | "skipped" => do
    let r ← Decoder.fields ["skip"] rest
    return .skipped (← Decoder.required r "skip" SkipReason.ofJson?)
  | "failed" => do
    let r ← Decoder.fields ["error"] rest
    return .failed (← Decoder.required r "error" Decoder.string)
  | _ => none

/-- Reads the JSON form of an outcome. -/
def ofJson? : Decoder Outcome
  | .array (.string name :: rest) => ofParts? name (.array rest)
  | .object members => do
    let r ← Decoder.fields ["outcome"] (.object members)
    let name ← Decoder.required r "outcome" Decoder.string
    ofParts? name (.object (Keyed.erase members "outcome"))
  | _ => none

end Outcome

/-- One line of the journal; without an action it is about the event itself. -/
structure Record where
  source : String
  event : EventName
  action : Option String
  outcome : Outcome
  deriving DecidableEq, Repr

/-- The JSON form of a record. -/
def Record.toJson (record : Record) : Json :=
  .object (
    [("source", .string record.source), ("event", .string record.event.text)]
    ++ (match record.action with
      | some action => [("action", .string action)]
      | none => [])
    ++ record.outcome.members)

end Componentry

import Componentry.Json.Basic
import Componentry.Text.Blank
import Componentry.Text.Case
/-!
# Events and lifecycles

An event is raised by an entity under a normalized name: lower case, and made of ASCII letters,
digits, `_` and `-`.  Four names are lifecycle events; they report how an execution or a load ended.

Every entity is in a `LifecycleState`.  `begin?` leads from any state but `running` into `running`;
`complete?` leads out of `running` into the state that the outcome names, and `success` settles
into `finished`.
-/

namespace Componentry

/-- The events that report the end of an execution or a load. -/
inductive LifecycleEvent where
  | error
  | failed
  | finished
  | success
  deriving DecidableEq, Repr

namespace LifecycleEvent

/-- All lifecycle events. -/
def all : List LifecycleEvent := [.error, .failed, .finished, .success]

/-- The event name of a lifecycle event. -/
def name : LifecycleEvent → String
  | .error => "error"
  | .failed => "failed"
  | .finished => "finished"
  | .success => "success"

/-- The lifecycle event with exactly this name. -/
def ofName? (name : String) : Option LifecycleEvent :=
  all.find? fun event => event.name = name

/-- The events raised for an outcome: `success` is followed by `finished`. -/
def raised : LifecycleEvent → List LifecycleEvent
  | .success => [.success, .finished]
  | outcome => [outcome]

end LifecycleEvent

/-- A normalized event name. -/
structure EventName where
  text : String
  deriving DecidableEq, Repr

namespace EventName

/-- Normalizes a name; blank names and names with other characters are refused. -/
def ofText? (raw : String) : Option EventName :=
  let normal := Text.lower (Text.trim raw)
  if normal.toList ≠ [] ∧ normal.toList.all Text.isNameChar then some ⟨normal⟩ else none

/-- The name of a lifecycle event. -/
def ofLifecycle (event : LifecycleEvent) : EventName := ⟨event.name⟩

/-- The name under which load requests appear in the journal. -/
def load : EventName := ⟨"load"⟩

/-- The lifecycle event that a name denotes. -/
def lifecycle? (name : EventName) : Option LifecycleEvent :=
  LifecycleEvent.ofName? name.text

end EventName

/-- An event raised by an entity. -/
structure Event where
  name : EventName
  source : String
  payload : Option Json
  deriving DecidableEq, Repr

/-- Where an entity is between two executions or loads. -/
inductive LifecycleState where
  | idle
  | running
  | finished
  | failed
  | error
  deriving DecidableEq, Repr

/-- A step that the lifecycle does not allow. -/
structure InvalidTransition where
  state : LifecycleState
  step : String
  deriving DecidableEq, Repr

namespace LifecycleState

/-- All states. -/
def all : List LifecycleState := [.idle, .running, .finished, .failed, .error]

/-- The name of a state in values. -/
def name : LifecycleState → String
  | .idle => "idle"
  | .running => "running"
  | .finished => "finished"
  | .failed => "failed"
  | .error => "error"

/-- The name of a state in messages. -/
def title : LifecycleState → String
  | .idle => "Idle"
  | .running => "Running"
  | .finished => "Finished"
  | .failed => "Failed"
  | .error => "Error"

/-- The state with exactly this name. -/
def ofName? (name : String) : Option LifecycleState :=
  all.find? fun state => state.name = name

/-- Leads into `running`, from any other state. -/
def begin? (state : LifecycleState) : Except InvalidTransition LifecycleState :=
  match state with
  | .running => .error ⟨.running, "begin"⟩
  | _ => .ok .running

/-- The state that an outcome settles into. -/
def settled : LifecycleEvent → LifecycleState
  | .finished => .finished
  | .success => .finished
  | .failed => .failed
  | .error => .error

/-- Leads out of `running`, into the state of the outcome. -/
def complete? (state : LifecycleState) (outcome : LifecycleEvent) :
    Except InvalidTransition LifecycleState :=
  match state with
  | .running => .ok (settled outcome)
  | state => .error ⟨state, outcome.name⟩

/-- Whether something has ended in this state. -/
def isTerminal : LifecycleState → Bool
  | .finished | .failed | .error => true
  | .idle | .running => false

end LifecycleState

/-- The wording of a refused step. -/
def InvalidTransition.message (e : InvalidTransition) : String :=
  "invalid lifecycle transition from " ++ e.state.title ++ " on " ++ e.step

end Componentry

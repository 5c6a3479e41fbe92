import Componentry.Session.Basic
import Componentry.Template
/-!
# Deliveries

A lane takes its messages one at a time.  For an event `plan` finds the actions that its source
binds to it and decides, by the gates as they stand at that moment, which of them run and which are
skipped; then they run in order, each after its delay, before the next message is taken.  A repeat
is planned in the same way for its one action, and runs at once.

`execute` runs one action: it works out the effect, carries it out, records what happened, and
raises the lifecycle events of the action.  `advanceLane` is one move of a lane; between two moves
of a lane other lanes, loads and repeats may make theirs.
-/

namespace Componentry

/-- What is going to happen to an event: its source drops it, or the bound actions follow. -/
inductive Plan where
  | dropped (reason : SkipReason)
  | steps (steps : List PlannedStep)
  deriving DecidableEq, Repr

namespace Session

/-! ### Planning -/

/-- Why a source drops an event: it is suppressed, or it is a control whose `enabled` gate is not
open. -/
def dropReason? (s : Session) (source : Entity) (scope : Scope) : Option SkipReason :=
  if source.suppressed then some .sourceSuppressed
  else if source.role = .control then
    match Gate.isOpen s.host.evaluator scope source.enabled with
    | .ok true => none
    | .ok false => some .sourceDisabled
    | .error e => some (.gateError e.message)
  else none

/-- Why an action is skipped: one of its gates is not open. -/
def skipReason? (s : Session) (action : Entity) (scope : Scope) : Option SkipReason :=
  match Gate.isOpen s.host.evaluator scope action.enabled with
  | .error e => some (.gateError e.message)
  | .ok false => some .disabled
  | .ok true =>
    match Gate.isOpen s.host.evaluator scope action.condition with
    | .error e => some (.gateError e.message)
    | .ok false => some .conditionFalse
    | .ok true => none

/-- What is going to happen to one bound action. -/
def planStep (s : Session) (source : Entity) (scope : Scope) (action : Nat) :
    Option PlannedStep :=
  (s.tree.entity? action).map fun e =>
    match s.skipReason? e scope with
    | some reason => .skip e.id reason
    | none => .run {
        action
        actionId := e.id
        delay := e.delay
        interval := if source.behaviour.supportsRepetition then e.repeatDelay else none }

/-- What is going to happen to an event, or to one of its actions only. An event without a source
is not planned at all. -/
def plan (s : Session) (event : Event) (only : Option Nat) : Option Plan := do
  let index ← s.tree.find? event.source
  let source ← s.tree.entity? index
  let scope : Scope := { tree := s.tree, event := some event }
  match s.dropReason? source scope with
  | some reason => return .dropped reason
  | none =>
    let actions := (s.tree.boundActions index event.name).filter fun action =>
      only.all (· = action)
    return .steps (actions.filterMap (s.planStep source scope))

/-! ### Running an action -/

/-- Shows the change of an entity, if it is a control. -/
def notifyUpdate (s : Session) (index : Nat) (animated : Bool) : Session :=
  match s.tree.entity? index with
  | some e => if e.role = .control then s.notify (.update e.id animated) else s
  | none => s

/-- Carries an effect out, and says why it fails if the host refuses it. A load is not started
here, since it is accepted only after the action has been recorded. -/
def perform (s : Session) : Effect → Session × Option ActionError
  | .none | .load _ => (s, none)
  | .alert alert => (s.notify (.alert alert), none)
  | .merge place changes animated =>
    let s := { s with tree := s.tree.merge place changes }
    match place with
    | .entity index => (s.notifyUpdate index animated, none)
    | .app | .session => (s, none)
  | .redraw id => (s.notify (.redraw id), none)
  | .call call =>
    (s.notify (.call call), (s.host.refusal call.functionName).map ActionError.refused)

/-- What an action is shown when it runs on an event. -/
def invocation (s : Session) (action : Entity) (event : Event) : Invocation where
  actionId := action.id
  declaredTarget := action.target
  target := s.tree.resolveTarget action.target
  attributes := Template.expandAttributes s.host.catalog { tree := s.tree, event := some event }
    action.attributes
  event

/-- The wording of a failure of an action. -/
def failureMessage (actionId : String) : ActionError → String
  | .unresolvedTarget target =>
    "action '" ++ actionId ++ "' could not resolve target '" ++ target ++ "'"
  | e => e.message

/-- The verdict of an entity on an event; an entity without an action has no effect. -/
def verdict (s : Session) (e : Entity) (event : Event) : Verdict :=
  match e.behaviour.action? with
  | none => { result := .ok .none }
  | some action => action (s.invocation e event)

/-- Gives a verdict effect: what the action reports, then the effect it asks for. The answer is the
effect that was carried out, or the failure. -/
def carryOut (s : Session) (verdict : Verdict) : Session × Except ActionError Effect :=
  let s := { s with reports := s.reports ++ verdict.reports }
  match verdict.result with
  | .error e => (s, .error e)
  | .ok effect =>
    match s.perform effect with
    | (s, none) => (s, .ok effect)
    | (s, some e) => (s, .error e)

/-- Runs an action on an event. -/
def execute (s : Session) (index : Nat) (event : Event) : Session :=
  match s.tree.entity? index with
  | none => s
  | some e =>
    match s.carryOut (s.verdict e event) with
    | (s, .ok effect) =>
      let s := (s.setState index .finished).record event (some e.id) .executed
      let s := match effect with
        | .load provider => s.acceptLoad provider
        | _ => s
      s.raiseLifecycle index (LifecycleEvent.success.raised.map (·, none))
    | (s, .error failure) =>
      let message := failureMessage e.id failure
      let s := (s.setState index .failed).record event (some e.id) (.failed message)
      s.raiseLifecycle index
        [(.failed, some (.object [("message", .string message)]))]

/-! ### Repeats -/

/-- The name under which a binding repeats. -/
def repeatId (event : Event) (actionId : String) : String :=
  event.source ++ "/" ++ event.name.text ++ "/" ++ actionId

/-- Starts the repeat of an action that has run, in place of the one its binding may have. -/
def scheduleRepeat (s : Session) (event : Event) (run : PlannedRun) : Session :=
  match run.interval with
  | none | some 0 => s
  | some interval =>
    let interval := s.host.dispatch.clampRepeat interval
    { s with
      ticker := s.ticker.start s.clock s.closed (repeatId event run.actionId)
        ⟨run.action, event⟩ interval interval s.host.dispatch.maxRepeats }

/-- One tick of a repeat: it puts the action on the lane of its source once more, as long as the
lane takes it. -/
def advanceTimer (s : Session) (generation : Nat) : Session :=
  match s.ticker.timer? generation with
  | none => s
  | some timer =>
    if timer.wake ≤ s.clock then
      let event := timer.label.event
      { s.enqueue event.source (.refire timer.label.action event) with
        ticker := s.ticker.tick timer !s.closed }
    else s

/-! ### Moves of a lane -/

/-- The moment at which an action runs that is planned now. -/
def wakeFor (s : Session) (run : PlannedRun) : Nat :=
  s.clock + roundUp (run.delay.getD 0) / 1000

/-- Ends the work of a lane. -/
def finishWork (s : Session) (source : String) : Session :=
  (s.setLane source { s.lane source with work := none }).finishOne

/-- Goes through the steps of a delivery up to the next action that runs; without one the delivery
has ended. -/
def proceed (s : Session) (source : String) (event : Event) : List PlannedStep → Session
  | [] => s.finishWork source
  | .skip actionId reason :: rest =>
    (s.record event (some actionId) (.skipped reason)).proceed source event rest
  | .run next :: rest =>
    s.setLane source { s.lane source with work := some ⟨event, next, rest, s.wakeFor next⟩ }

/-- Begins the delivery of an event. -/
def deliver (s : Session) (source : String) (event : Event) : Session :=
  match s.plan event none with
  | none => s.finishWork source
  | some (.dropped reason) => (s.record event none (.skipped reason)).finishWork source
  | some (.steps steps) =>
    (s.record event none (.delivered steps.length)).proceed source event steps

/-- One step of a repetition, which waits for nothing. -/
def refireStep (s : Session) (event : Event) : PlannedStep → Session
  | .run run => s.execute run.action event
  | .skip actionId reason => s.record event (some actionId) (.skipped reason)

/-- Repeats one action of an event. -/
def refire (s : Session) (source : String) (action : Nat) (event : Event) : Session :=
  match s.plan event (some action) with
  | some (.steps steps) =>
    (steps.foldl (fun s step => s.refireStep event step) s).finishWork source
  | _ => s.finishWork source

/-- Takes a message that has been removed from its lane. -/
def take (s : Session) (source : String) : Message → Session
  | .deliver event => s.deliver source event
  | .refire action event => s.refire source action event

/-- Runs the next action of a delivery and goes on to the one after it. -/
def runNext (s : Session) (source : String) (delivery : Delivery) : Session :=
  ((s.execute delivery.next.action delivery.event).scheduleRepeat delivery.event
    delivery.next).proceed source delivery.event delivery.rest

/-- One move of a lane. A closed session drops the delivery under way, and then the queue. -/
def advanceLane (s : Session) (source : String) : Session :=
  let lane := s.lane source
  match lane.work, lane.queue with
  | some delivery, _ =>
    if s.closed then s.finishWork source
    else if delivery.wake ≤ s.clock then s.runNext source delivery
    else s
  | none, [] => s
  | none, message :: queue =>
    if s.closed then (s.setLane source { queue }).finishOne
    else (s.setLane source { queue }).take source message

end Session

end Componentry

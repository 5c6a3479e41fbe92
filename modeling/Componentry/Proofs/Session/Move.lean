import Mathlib.Tactic
import Componentry.Proofs.Session.Turn
import Componentry.Session.Schedule
/-!
# Moves and runs of a session

A run is a list of moves in any order: moves of the host, of which a refused one changes nothing
(`accepted`), moves of tasks, which change nothing unless the task is ready, and time passing.
`Session.ofDocument` is the session that a run starts from.

For one move there are four questions, and each has a definition that answers it from the session
before the move: which executions and loads does it end (`completions`), which messages does it put
on lanes (`posted`), which message does it take off a lane (`taken`), and which records does it
write (`records`).
-/

namespace Componentry

/-- What can happen to a session. -/
inductive Move where
  | dispatch (event : Event)
  | raise (source name : String) (payload : Option Json)
  | load (id : String)
  | begin (id : String)
  | complete (id : String) (outcome : LifecycleEvent) (payload : Option Json)
  | teardown
  | advance (task : Task)
  | elapse (moment : Nat)
  deriving DecidableEq

/-- Whether a move is one of a load. -/
def Move.isLoadTask : Move → Bool
  | .advance (.load _) => true
  | _ => false

namespace Session

/-- The session that is opened on a document. -/
def ofDocument (host : Host) (document : Document) : Session :=
  start host (document.build host.catalog host.evaluator host.dispatch).tree

/-- The session after a move of the host; a refused one changes nothing. -/
def accepted (s : Session) : Except DispatchError Session → Session
  | .ok t => t
  | .error _ => s

/-- The session after a move. -/
def apply (s : Session) : Move → Session
  | .dispatch event => s.accepted (s.dispatch event)
  | .raise source name payload => s.accepted (s.raise source name payload)
  | .load id => s.accepted (s.load id)
  | .begin id => s.accepted (s.begin id)
  | .complete id outcome payload => s.accepted (s.complete id outcome payload)
  | .teardown => s.teardown
  | .advance task => s.advance task
  | .elapse moment => s.elapse moment

/-- The session after several moves. -/
def run (s : Session) (moves : List Move) : Session := moves.foldl apply s

@[simp] lemma run_nil (s : Session) : s.run [] = s := rfl

@[simp] lemma run_cons (s : Session) (m : Move) (moves : List Move) :
    s.run (m :: moves) = (s.apply m).run moves := rfl

lemma run_append (s : Session) (moves more : List Move) :
    s.run (moves ++ more) = (s.run moves).run more := List.foldl_append

lemma run_concat (s : Session) (moves : List Move) (m : Move) :
    s.run (moves ++ [m]) = (s.run moves).apply m := s.run_append moves [m]

/-! ### What a move ends, posts and records -/

/-- The completion of a load whose result is taken. -/
def loadCompletion (s : Session) (provider : Nat) (result : LoadResult) : List Completion :=
  match s.tree.entity? provider with
  | none => []
  | some e => [⟨provider, (outcomeOf e result).1.raised.map (·, some (outcomeOf e result).2)⟩]

/-- The executions and loads that a move ends, in order. -/
def completions (s : Session) : Move → List Completion
  | .complete id outcome payload =>
    match s.addressed id with
    | .error _ => []
    | .ok (index, e) =>
      match e.state.complete? outcome with
      | .error _ => []
      | .ok _ => [⟨index, outcome.raised.map (·, payload)⟩]
  | .advance (.lane source) => ((s.turn source).map fun turn => turn.completions).getD []
  | .advance (.load ticket) =>
    match s.loads.find? fun load => load.ticket = ticket with
    | none => []
    | some load =>
      match load.answer with
      | none => []
      | some (arrival, result) =>
        if arrival ≤ s.clock then s.loadCompletion load.provider result else []
  | _ => []

/-- The post of an event that the host dispatches. -/
def dispatched (s : Session) (event : Event) : List (String × Message) :=
  match s.dispatch event with
  | .ok _ => [(event.source, .deliver event)]
  | .error _ => []

/-- The post of an event that the host raises by name. -/
def raised (s : Session) (source name : String) (payload : Option Json) : List (String × Message) :=
  match EventName.ofText? name with
  | none => []
  | some name => s.dispatched { name, source, payload }

/-- The post of a repeat that is due. -/
def refired (s : Session) (generation : Nat) : List (String × Message) :=
  match s.ticker.timer? generation with
  | none => []
  | some timer =>
    if timer.wake ≤ s.clock then
      [(timer.label.event.source, .refire timer.label.action timer.label.event)]
    else []

/-- The messages that a move puts on lanes, in order. A closed session takes none. -/
def posted (s : Session) (m : Move) : List (String × Message) :=
  if s.closed then []
  else
    match m with
    | .dispatch event => s.dispatched event
    | .raise source name payload => s.raised source name payload
    | .advance (.timer generation) => s.refired generation
    | m => s.postsOf (s.completions m)

/-- The record of a load of a suppressed provider. -/
def refusedRecord (id : String) : Record := ⟨id, EventName.load, none, .skipped .sourceSuppressed⟩

/-- The records that the first move of a load writes. -/
def beginRecords (s : Session) (load : Load) : List Record :=
  match s.tree.entity? load.provider with
  | none => []
  | some e =>
    if e.behaviour.dataProvider?.isSome ∧ e.suppressed = true then [refusedRecord e.id] else []

/-- The records that a move writes, in order. -/
def records (s : Session) : Move → List Record
  | .advance (.lane source) =>
    if s.closed then [] else ((s.turn source).map fun turn => turn.records).getD []
  | .advance (.load ticket) =>
    match s.loads.find? fun load => load.ticket = ticket with
    | none => []
    | some load =>
      match load.answer with
      | none => s.beginRecords load
      | some _ => []
  | _ => []

/-- The message that a move takes off a lane: only the lane itself takes one, when nothing is under
way on it. -/
def taken (s : Session) (source : String) : Move → List Message
  | .advance (.lane mover) =>
    if mover = source ∧ (s.lane source).work = none then (s.lane source).queue.take 1 else []
  | _ => []

end Session

end Componentry

import Componentry.Build.Basic
import Componentry.Session.Journal
import Componentry.Ticker
import Componentry.Tree.Snapshot
/-!
# Sessions

A session is a built tree with the traffic on it.  Every entity that raises an event has a `Lane`, a
queue from which one delivery at a time is taken, so that the events of one entity stay in order.
Beside the lanes there are the `Load`s under way and the `Ticker` of the repeats.

A session is a value, and what happens in it happens in moves.  This module has the moves of the
host: to raise an event, to load a provider, to begin and to complete an entity by hand, and to tear
the session down.  Each of them either is refused and changes nothing, or puts a message on a lane or
a load among the loads.  The moves of the session itself are in `Session.Delivery` and
`Session.Load`.

`pending` counts the messages on lanes, the deliveries under way and the loads: what `settle` waits
for.
-/

namespace Componentry

/-- What the session shows to the host, in the order in which it happens. -/
inductive Notice where
  /-- The root is shown for the first time. -/
  | render (id : String)
  /-- The attributes of a node have changed. -/
  | update (id : String) (animated : Bool)
  /-- A node is to be redrawn. -/
  | redraw (id : String)
  | call (call : FunctionCall)
  | alert (alert : Alert)
  deriving DecidableEq, Repr

/-- What a session needs from its host. -/
structure Host where
  catalog : Catalog
  evaluator : Evaluator
  dispatch : DispatchConfig
  /-- How long the transport takes for a request, in milliseconds, and its result, given the
  requests before it. -/
  transport : List DataRequest → DataRequest → Nat × LoadResult
  /-- Why a function must not be called, by its name. -/
  refusal : String → Option String

/-- The transport of a host that has none: every load ends in an error at once. -/
def Host.offline (_ : List DataRequest) (request : DataRequest) : Nat × LoadResult :=
  (0, .error (.error ("no transport configured for '" ++ request.providerId ++ "'")))

/-- Why a move of the host is refused. -/
inductive DispatchError where
  | unknownEvent (name : String)
  | unknownEntity (id : String)
  | notADataProvider (id : String)
  | invalidTransition (id : String) (transition : InvalidTransition)
  | sessionClosed
  deriving DecidableEq, Repr

/-- The wording of a refusal. -/
def DispatchError.message : DispatchError → String
  | .unknownEvent name =>
    "event '" ++ name ++ "' is not a lifecycle event and no entity binds it"
  | .unknownEntity id => "no entity with id '" ++ id ++ "'"
  | .notADataProvider id => "entity '" ++ id ++ "' is not a data provider"
  | .invalidTransition id transition => "entity '" ++ id ++ "': " ++ transition.message
  | .sessionClosed => "session is closed"

/-- The wording of a refusal, followed by that of what caused it. -/
def DispatchError.messages (e : DispatchError) : List String :=
  match e with
  | .invalidTransition _ transition => [e.message, transition.message]
  | .unknownEvent _ | .unknownEntity _ | .notADataProvider _ | .sessionClosed => [e.message]

/-- What waits on a lane: an event, or the repetition of one of its actions. -/
inductive Message where
  | deliver (event : Event)
  | refire (action : Nat) (event : Event)
  deriving DecidableEq, Repr

/-- An action that is going to run. -/
structure PlannedRun where
  action : Nat
  actionId : String
  /-- How long to wait before it, in microseconds. -/
  delay : Option Nat
  /-- The interval at which it repeats, in microseconds. -/
  interval : Option Nat
  deriving DecidableEq, Repr

/-- What is going to happen to a bound action. -/
inductive PlannedStep where
  | run (run : PlannedRun)
  | skip (actionId : String) (reason : SkipReason)
  deriving DecidableEq, Repr

/-- A delivery under way: the next action to run, and what follows it. -/
structure Delivery where
  event : Event
  next : PlannedRun
  rest : List PlannedStep
  /-- When the next action runs, in milliseconds. -/
  wake : Nat
  deriving DecidableEq, Repr

/-- The messages of one source. -/
structure Lane where
  queue : List Message := []
  /-- The delivery under way. -/
  work : Option Delivery := none
  deriving DecidableEq, Repr

/-- A load that was accepted and has not ended. -/
structure Load where
  ticket : Nat
  provider : Nat
  /-- Once the provider has been asked: when the answer is there, in milliseconds, and what it is. -/
  answer : Option (Nat × LoadResult) := none

/-- What a repeat puts on the lane of its source at every tick. -/
structure Refire where
  action : Nat
  event : Event
  deriving DecidableEq, Repr

/-- A tree and the traffic on it. -/
structure Session where
  host : Host
  tree : Tree
  /-- The time since the session was opened, in milliseconds. -/
  clock : Nat := 0
  lanes : Keyed String Lane := []
  loads : List Load := []
  /-- How many loads were accepted. -/
  tickets : Nat := 0
  ticker : Ticker Refire := {}
  pending : Nat := 0
  closed : Bool := false
  journal : List Record := []
  notices : List Notice := []
  /-- What actions have reported. -/
  reports : List Json := []
  /-- The requests that went to the transport. -/
  requests : List DataRequest := []

namespace Session

/-- Opens a session on a built tree: the root is shown. -/
def start (host : Host) (tree : Tree) : Session where
  host
  tree
  notices := match tree.root.bind tree.entity? with
    | some root => [.render root.id]
    | none => []

/-! ### Small moves -/

/-- Writes a record about an event. -/
def record (s : Session) (event : Event) (action : Option String) (outcome : Outcome) : Session :=
  { s with journal := s.journal ++ [⟨event.source, event.name, action, outcome⟩] }

/-- Shows something to the host. -/
def notify (s : Session) (notice : Notice) : Session :=
  { s with notices := s.notices ++ [notice] }

/-- Counts off one message, delivery or load. -/
def finishOne (s : Session) : Session := { s with pending := s.pending - 1 }

/-- Changes an entity. -/
def modifyEntity (s : Session) (index : Nat) (f : Entity → Entity) : Session :=
  { s with tree := s.tree.modify index f }

/-- Sets the lifecycle state of an entity. -/
def setState (s : Session) (index : Nat) (state : LifecycleState) : Session :=
  s.modifyEntity index fun e => { e with state }

/-- The lane of a source; one that was never used is empty. -/
def lane (s : Session) (source : String) : Lane := (s.lanes.lookup source).getD {}

/-- Sets the lane of a source. -/
def setLane (s : Session) (source : String) (lane : Lane) : Session :=
  { s with lanes := s.lanes.insert source lane }

/-- Puts a message on the lane of a source; a closed session takes none. -/
def enqueue (s : Session) (source : String) (message : Message) : Session :=
  if s.closed then s
  else
    let lane := s.lane source
    { s.setLane source { lane with queue := lane.queue ++ [message] } with
      pending := s.pending + 1 }

/-- Accepts a load of the entity at an index. -/
def acceptLoad (s : Session) (provider : Nat) : Session :=
  { s with
    loads := s.loads ++ [{ ticket := s.tickets, provider }]
    tickets := s.tickets + 1
    pending := s.pending + 1 }

/-- Raises lifecycle events for an entity, if it has any bindings at all. -/
def raiseLifecycle (s : Session) (index : Nat) (events : List (LifecycleEvent × Option Json)) :
    Session :=
  match s.tree.entity? index with
  | none => s
  | some e =>
    if e.bindings = [] then s
    else
      events.foldl (fun s (event, payload) =>
        s.enqueue e.id (.deliver ⟨EventName.ofLifecycle event, e.id, payload⟩)) s

/-! ### Moves of the host -/

/-- Puts an event on the lane of its source. -/
def dispatch (s : Session) (event : Event) : Except DispatchError Session :=
  if s.closed then .error .sessionClosed
  else if (s.tree.find? event.source).isNone then .error (.unknownEntity event.source)
  else if event.name.lifecycle?.isNone && !s.tree.declares event.name then
    .error (.unknownEvent event.name.text)
  else .ok (s.enqueue event.source (.deliver event))

/-- Raises an event by name. -/
def raise (s : Session) (source name : String) (payload : Option Json) :
    Except DispatchError Session :=
  match EventName.ofText? name with
  | none => .error (.unknownEvent name)
  | some name => s.dispatch { name, source, payload }

/-- The entity that an id addresses, with its index. -/
def addressed (s : Session) (id : String) : Except DispatchError (Nat × Entity) :=
  match s.tree.find? id with
  | none => .error (.unknownEntity id)
  | some index =>
    match s.tree.entity? index with
    | none => .error (.unknownEntity id)
    | some e => .ok (index, e)

/-- Loads a data provider. -/
def load (s : Session) (id : String) : Except DispatchError Session :=
  if s.closed then .error .sessionClosed
  else
    match s.addressed id with
    | .error e => .error e
    | .ok (index, e) =>
      if e.behaviour.dataProvider?.isNone then .error (.notADataProvider id)
      else .ok (s.acceptLoad index)

/-- Moves an entity into `running` by hand. -/
def begin (s : Session) (id : String) : Except DispatchError Session :=
  match s.addressed id with
  | .error e => .error e
  | .ok (index, e) =>
    match e.state.begin? with
    | .error transition => .error (.invalidTransition id transition)
    | .ok state => .ok (s.setState index state)

/-- Moves an entity out of `running` by hand and raises the events of the outcome. -/
def complete (s : Session) (id : String) (outcome : LifecycleEvent) (payload : Option Json) :
    Except DispatchError Session :=
  match s.addressed id with
  | .error e => .error e
  | .ok (index, e) =>
    match e.state.complete? outcome with
    | .error transition => .error (.invalidTransition id transition)
    | .ok state => .ok <|
      (s.setState index state).raiseLifecycle index (outcome.raised.map (·, payload))

/-- Closes the session: nothing is taken from a lane any more, and all repeats end. -/
def teardown (s : Session) : Session :=
  if s.closed then s else { s with closed := true, ticker := s.ticker.clear }

/-- The snapshot of the entity that an id addresses. -/
def snapshot? (s : Session) (id : String) : Option Snapshot :=
  (s.tree.find? id).bind s.tree.snapshot?

end Session

end Componentry

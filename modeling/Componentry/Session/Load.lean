import Componentry.Session.Delivery
/-!
# Loads

A load that was accepted makes two moves.  `beginLoad` asks the provider, unless the load is
refused: the entity has no provider, is suppressed, or is running already.  `endLoad` takes the
answer once it is there: the payload is kept, the entity settles, and the events of the outcome are
raised.  The answer to a closed session is dropped.
-/

namespace Componentry.Session

/-- Removes a load that has ended. -/
def dropLoad (s : Session) (ticket : Nat) : Session :=
  { s with loads := s.loads.filter fun load => load.ticket ≠ ticket }.finishOne

/-- Notes the answer that a load is going to get. -/
def setAnswer (s : Session) (ticket : Nat) (arrival : Nat) (result : LoadResult) : Session :=
  { s with loads := s.loads.map fun load =>
      if load.ticket = ticket then { load with answer := some (arrival, result) } else load }

/-- The event under which a refused load is recorded. -/
def loadEvent (id : String) : Event := { name := EventName.load, source := id, payload := none }

/-- The request of a provider for a load: its attributes are expanded in the tree as it is. -/
def loadRequest (s : Session) (e : Entity) (provider : DataProvider) : DataRequest :=
  provider.request {
    id := e.id
    typeName := e.typeName.getD ""
    attributes := Template.expandAttributes s.host.catalog { tree := s.tree } e.attributes }

/-- Hands a request to the transport, or lets the provider answer it. -/
def ask (s : Session) (ticket : Nat) (provider : DataProvider) (request : DataRequest) : Session :=
  match provider.plan request with
  | .answer result => s.setAnswer ticket s.clock result
  | .ask request =>
    let (latency, result) := s.host.transport s.requests request
    { s with requests := s.requests ++ [request] }.setAnswer ticket (s.clock + latency) result

/-- The first move of a load. -/
def beginLoad (s : Session) (load : Load) : Session :=
  match s.tree.entity? load.provider with
  | none => s.dropLoad load.ticket
  | some e =>
    match e.behaviour.dataProvider? with
    | none => s.dropLoad load.ticket
    | some provider =>
      if e.suppressed then
        (s.record (loadEvent e.id) none (.skipped .sourceSuppressed)).dropLoad load.ticket
      else if e.state = .running then s.dropLoad load.ticket
      else
        let request := s.loadRequest e provider
        (s.setState load.provider .running).ask load.ticket provider request

/-- The payload that an entity keeps of an answer. -/
def keptPayload (e : Entity) (answer : Json) : Json :=
  match e.behaviour.dataProvider? with
  | some provider => provider.transform answer e.attributes
  | none => answer

/-- The outcome that a result is, and the payload of its events. -/
def outcomeOf (e : Entity) : LoadResult → LifecycleEvent × Json
  | .ok answer => (.success, keptPayload e answer)
  | .error (.failed message payload) =>
    (.failed, .object [("message", .string message), ("payload", payload.getD .null)])
  | .error (.error message) => (.error, .object [("message", .string message)])

/-- The entity after a load: a success leaves its payload, and a running entity settles. -/
def loaded (e : Entity) (result : LoadResult) : Entity :=
  { e with
    payload := match result with
      | .ok answer => some (keptPayload e answer)
      | .error _ => e.payload
    state := match e.state.complete? (outcomeOf e result).1 with
      | .ok state => state
      | .error _ => e.state }

/-- Takes the result of a load and raises the events of its outcome. -/
def completeLoad (s : Session) (provider : Nat) (result : LoadResult) : Session :=
  match s.tree.entity? provider with
  | none => s
  | some e =>
    let (outcome, payload) := outcomeOf e result
    (s.modifyEntity provider fun e => loaded e result).raiseLifecycle provider
      (outcome.raised.map (·, some payload))

/-- The last move of a load. -/
def endLoad (s : Session) (load : Load) (result : LoadResult) : Session :=
  (if s.closed then s else s.completeLoad load.provider result).dropLoad load.ticket

/-- One move of a load. -/
def advanceLoad (s : Session) (ticket : Nat) : Session :=
  match s.loads.find? fun load => load.ticket = ticket with
  | none => s
  | some load =>
    match load.answer with
    | none => s.beginLoad load
    | some (arrival, result) => if arrival ≤ s.clock then s.endLoad load result else s

end Componentry.Session

import Componentry.Session.Load
/-!
# The schedule

The moves that a session can make at a moment are its ready tasks: lanes with something to do, loads
to begin or to end, and repeats that are due.  Which of them comes next is free as far as the rest
of the library is concerned; a `Schedule` takes them in turn, in the order in which they became
ready.  Time passes only when no task is ready, and then up to the next moment at which one is.

`settle` runs a session until nothing is pending, `wait` until a given time has passed.
-/

namespace Componentry

/-- Who can make a move. -/
inductive Task where
  | lane (source : String)
  | load (ticket : Nat)
  | timer (generation : Nat)
  deriving DecidableEq, Repr

/-- Whether a lane can make a move. -/
def Lane.isReady (lane : Lane) (clock : Nat) (closed : Bool) : Bool :=
  match lane.work with
  | some delivery => closed || delivery.wake ≤ clock
  | none => !lane.queue.isEmpty

/-- When the delivery of a lane goes on, if it waits. -/
def Lane.wake? (lane : Lane) : Option Nat := lane.work.map Delivery.wake

/-- Whether a load can make a move. -/
def Load.isReady (load : Load) (clock : Nat) : Bool :=
  match load.answer with
  | none => true
  | some (arrival, _) => arrival ≤ clock

namespace Session

/-- The tasks that can make a move now. -/
def ready (s : Session) : List Task :=
  (s.lanes.filter fun entry => entry.2.isReady s.clock s.closed).map (fun entry => .lane entry.1)
    ++ (s.loads.filter fun load => load.isReady s.clock).map (fun load => .load load.ticket)
    ++ (s.ticker.timers.filter fun timer => timer.wake ≤ s.clock).map
      (fun timer => .timer timer.generation)

/-- The move of a task; a task that is not ready changes nothing. -/
def advance (s : Session) : Task → Session
  | .lane source => s.advanceLane source
  | .load ticket => s.advanceLoad ticket
  | .timer generation => s.advanceTimer generation

/-- The next moment after now at which a task becomes ready. -/
def nextWake? (s : Session) : Option Nat :=
  ((s.lanes.filterMap fun entry => entry.2.wake?)
    ++ (s.loads.filterMap fun load => load.answer.map Prod.fst)
    ++ s.ticker.timers.map Timer.wake).filter (s.clock < ·) |>.min?

/-- Lets time pass up to a moment. -/
def elapse (s : Session) (moment : Nat) : Session := { s with clock := max s.clock moment }

end Session

/-- A session with the order in which its ready tasks take their turns. -/
structure Schedule where
  session : Session
  agenda : List Task := []

namespace Schedule

/-- Brings the agenda up to date after a move: tasks that are no longer ready leave it, others join
at its end. -/
def refresh (schedule : Schedule) : Schedule :=
  let ready := schedule.session.ready
  let kept := schedule.agenda.filter (· ∈ ready)
  { schedule with agenda := kept ++ ready.filter (· ∉ kept) }

/-- The schedule of a session after a move of the host. -/
def withSession (schedule : Schedule) (session : Session) : Schedule :=
  ({ schedule with session } : Schedule).refresh

/-- Lets the first task of the agenda make its move. If it stays ready it goes to the end, in front
of the tasks that its move has made ready. -/
def turn (schedule : Schedule) (task : Task) (rest : List Task) : Schedule :=
  ({ session := schedule.session.advance task, agenda := rest ++ [task] } : Schedule).refresh

/-- Lets time pass up to a moment. -/
def elapse (schedule : Schedule) (moment : Nat) : Schedule :=
  schedule.withSession (schedule.session.elapse moment)

/-- Runs until nothing is pending or the session is closed, for at most `fuel` moves. -/
def settleWithin : Nat → Schedule → Schedule
  | 0, schedule => schedule
  | fuel + 1, schedule =>
    if schedule.session.pending = 0 || schedule.session.closed then schedule
    else
      match schedule.agenda with
      | task :: rest => settleWithin fuel (schedule.turn task rest)
      | [] =>
        match schedule.session.nextWake? with
        | some moment => settleWithin fuel (schedule.elapse moment)
        | none => schedule

/-- Runs until just before a moment, for at most `fuel` moves. -/
def runUntil (finish : Nat) : Nat → Schedule → Schedule
  | 0, schedule => schedule
  | fuel + 1, schedule =>
    match schedule.agenda with
    | task :: rest => runUntil finish fuel (schedule.turn task rest)
    | [] =>
      match schedule.session.nextWake? with
      | some moment =>
        if moment < finish then runUntil finish fuel (schedule.elapse moment)
        else schedule.elapse finish
      | none => schedule.elapse finish

/-- How many moves a run may take before it is given up. -/
def moveLimit : Nat := 1000000

/-- Runs until nothing is pending or the session is closed. -/
def settle (schedule : Schedule) : Schedule := settleWithin moveLimit schedule

/-- Lets a number of milliseconds pass, with all that happens meanwhile. -/
def wait (schedule : Schedule) (millis : Nat) : Schedule :=
  if millis = 0 then schedule
  else runUntil (schedule.session.clock + millis) moveLimit schedule

end Schedule

end Componentry

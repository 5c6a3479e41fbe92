import Componentry.Keyed
/-!
# Tickers

A `Ticker` holds at most one timer per id.  A timer ticks for the first time after an initial delay
and then at every interval, until it is stopped or replaced, or has ticked as often as it may.
Time is in microseconds, but timers only go off at whole milliseconds: `roundUp` is the moment at
which a deadline is noticed.  The first tick starts the count of the intervals, so later deadlines
do not drift.

An id is *active* from the start of its timer until the timer is stopped or `retire`d.  Every timer
has a generation of its own, and retiring a timer leaves the id alone when a later generation has
taken it over.
-/

namespace Componentry

/-- Raises a moment in microseconds to a whole millisecond. -/
def roundUp (micros : Nat) : Nat := 1000 * ((micros + 999) / 1000)

/-- A timer that has not ended; what it hands over at every tick is its label. -/
structure Timer (α : Type) where
  id : String
  generation : Nat
  label : α
  /-- The deadline of the next tick, in microseconds. -/
  deadline : Nat
  interval : Nat
  /-- How many ticks are left. -/
  remaining : Nat
  deriving Repr

/-- The timers and the ids that are active. -/
structure Ticker (α : Type) where
  /-- The generation that holds an id. -/
  holders : Keyed String Nat := []
  /-- The timers that may still tick. -/
  timers : List (Timer α) := []
  /-- How many timers were started. -/
  generations : Nat := 0
  deriving Repr

/-- When a timer goes off, in milliseconds. -/
def Timer.wake {α : Type} (timer : Timer α) : Nat := roundUp timer.deadline / 1000

namespace Ticker

variable {α : Type}

/-- Whether an id is active. -/
def isActive (ticker : Ticker α) (id : String) : Bool := ticker.holders.contains id

/-- How many ids are active. -/
def activeCount (ticker : Ticker α) : Nat := ticker.holders.length

/-- Stops the timer of an id. -/
def stop (ticker : Ticker α) (id : String) : Ticker α :=
  match ticker.holders.lookup id with
  | none => ticker
  | some generation => { ticker with
      holders := ticker.holders.erase id
      timers := ticker.timers.filter fun timer => timer.generation ≠ generation }

/-- Stops all timers. -/
def clear (ticker : Ticker α) : Ticker α := { ticker with holders := [], timers := [] }

/-- Lets no timer tick any more and leaves the ids active. -/
def silence (ticker : Ticker α) : Ticker α := { ticker with timers := [] }

/-- Starts the timer of an id in place of the one it may have. A limit of zero starts none; a timer
without an interval, or one that is started silent, never ticks. -/
def start (ticker : Ticker α) (now : Nat) (silent : Bool) (id : String) (label : α)
    (initial interval limit : Nat) : Ticker α :=
  let ticker := ticker.stop id
  if limit = 0 then ticker
  else
    let timer : Timer α := {
      id, label, interval
      generation := ticker.generations
      deadline := roundUp (1000 * now + initial)
      remaining := limit }
    { holders := ticker.holders.insert id timer.generation
      timers := if silent || interval = 0 then ticker.timers else ticker.timers ++ [timer]
      generations := ticker.generations + 1 }

/-- The timer of a generation. -/
def timer? (ticker : Ticker α) (generation : Nat) : Option (Timer α) :=
  ticker.timers.find? fun timer => timer.generation = generation

/-- Passes over one tick of a timer: its next deadline is one interval later. A timer that has no
tick left, or is not to go on, ends. -/
def pass (ticker : Ticker α) (generation : Nat) (goOn : Bool) : Ticker α :=
  { ticker with
    timers := ticker.timers.filterMap fun timer =>
      if timer.generation = generation then
        if goOn && 1 < timer.remaining then
          some { timer with
            deadline := timer.deadline + timer.interval
            remaining := timer.remaining - 1 }
        else none
      else some timer }

/-- Gives up the id of a timer that has ended, unless a later timer holds it. -/
def retire (ticker : Ticker α) (id : String) (generation : Nat) : Ticker α :=
  if ticker.holders.lookup id = some generation then
    { ticker with holders := ticker.holders.erase id }
  else ticker

/-- One tick of a timer with the clean-up that follows the last one. -/
def tick (ticker : Ticker α) (timer : Timer α) (goOn : Bool) : Ticker α :=
  let passed := ticker.pass timer.generation goOn
  if (passed.timer? timer.generation).isSome then passed
  else passed.retire timer.id timer.generation

/-- When the next timer goes off, in milliseconds. -/
def nextWake? (ticker : Ticker α) : Option Nat := (ticker.timers.map Timer.wake).min?

/-- The first timer that goes off next. -/
def next? (ticker : Ticker α) : Option (Timer α) :=
  ticker.timers.find? fun timer => some timer.wake = ticker.nextWake?

/-- How many ticks are left over all timers. -/
def ticksLeft (ticker : Ticker α) : Nat :=
  ticker.timers.foldl (fun total timer => total + timer.remaining) 0

/-- Runs at most `fuel` ticks, all of them before a moment. -/
def ticksUntil (goOn : Nat → Timer α → Bool) (finish : Nat) :
    Nat → Ticker α → Ticker α × List (Nat × Timer α)
  | 0, ticker => (ticker, [])
  | fuel + 1, ticker =>
    match ticker.next? with
    | none => (ticker, [])
    | some timer =>
      if timer.wake < finish then
        let (ended, ticks) :=
          ticksUntil goOn finish fuel (ticker.tick timer (goOn timer.wake timer))
        (ended, (timer.wake, timer) :: ticks)
      else (ticker, [])

/-- Runs the timers until just before a moment; `goOn` says, from the moment and the timer, whether
a timer ticks again. The ticks come back with their moments, in order. -/
def runUntil (goOn : Nat → Timer α → Bool) (finish : Nat) (ticker : Ticker α) :
    Ticker α × List (Nat × Timer α) :=
  ticksUntil goOn finish ticker.ticksLeft ticker

end Ticker

end Componentry

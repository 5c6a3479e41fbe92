import Mathlib.Tactic
import Componentry.Proofs.Session.Traffic
/-!
# The turn of a lane

A lane that has something to do takes a turn: it takes a message off its queue, or goes on with the
delivery under way, up to the next action that has to wait or to the end of the message.  `turn`
says what that is: the executions that end, the records they leave in order, and the delivery that
is under way afterwards.  `advanceLane_eq` says that the move of a lane is its turn: a stretch of
work that starts when the message is off the lane (`opened`) and ends by noting the delivery or
counting the message off (`endTurn`).

While a turn runs its message is neither on the lane nor under way, so `pending` is ahead of the
`backlog` by one.  `Carries` is that invariant, and `pending_endTurn` settles the account.
-/

namespace Componentry

/-- What a stretch of work ends and records. -/
structure Emission where
  completions : List Completion := []
  records : List Record := []

/-- What the turn of a lane does, and the delivery that is under way after it. -/
structure Turn extends Emission where
  work : Option Delivery := none

/-- One stretch of work after another. -/
def Emission.append (first second : Emission) : Emission where
  completions := first.completions ++ second.completions
  records := first.records ++ second.records

/-- The record of an action that is skipped. -/
def skipRecord (event : Event) (actionId : String) (reason : SkipReason) : Record :=
  ⟨event.source, event.name, some actionId, .skipped reason⟩

/-- The records of the actions that are skipped before the next one that runs. -/
def skipRecords (event : Event) : List PlannedStep → List Record
  | .skip actionId reason :: rest => skipRecord event actionId reason :: skipRecords event rest
  | .run _ :: _ | [] => []

namespace Session

/-! ### The parts of a turn -/

/-- The delivery that goes on with the next action that runs. -/
def workFrom (s : Session) (event : Event) : List PlannedStep → Option Delivery
  | [] => none
  | .skip .. :: rest => s.workFrom event rest
  | .run next :: rest => some ⟨event, next, rest, s.wakeFor next⟩

/-- What the execution of an action ends and records. -/
def execution (s : Session) (index : Nat) (event : Event) : Emission :=
  match s.tree.entity? index with
  | none => {}
  | some e =>
    ⟨[⟨index, (s.ending e event).events⟩],
      [executionRecord event e.id (s.ending e event).outcome]⟩

/-- What one step of a repetition ends and records. -/
def refireEmission (s : Session) (event : Event) : PlannedStep → Emission
  | .run run => s.execution run.action event
  | .skip actionId reason => { records := [skipRecord event actionId reason] }

/-- What the steps of a repetition end and record, one after the other. -/
def refireEmissions (s : Session) (event : Event) : List PlannedStep → Emission
  | [] => {}
  | step :: rest =>
    (s.refireEmission event step).append ((s.refireStep event step).refireEmissions event rest)

/-- The posts of completions: their messages in order. -/
def postsOf (s : Session) (completions : List Completion) : List (String × Message) :=
  completions.flatMap s.messagesOf

/-- The turn that goes on with a delivery. -/
def nextTurn (s : Session) (delivery : Delivery) : Turn where
  toEmission := (s.execution delivery.next.action delivery.event).append
    { records := skipRecords delivery.event delivery.rest }
  work := s.workFrom delivery.event delivery.rest

/-- The turn that takes an event. -/
def deliverTurn (s : Session) (event : Event) : Turn :=
  match s.plan event none with
  | none => {}
  | some (.dropped reason) => { records := [⟨event.source, event.name, none, .skipped reason⟩] }
  | some (.steps steps) =>
    { records :=
        ⟨event.source, event.name, none, .delivered steps.length⟩ :: skipRecords event steps
      work := s.workFrom event steps }

/-- The turn that takes the repetition of an action. -/
def refireTurn (s : Session) (action : Nat) (event : Event) : Turn :=
  match s.plan event (some action) with
  | some (.steps steps) => { toEmission := s.refireEmissions event steps }
  | _ => {}

/-- The session in which the turn of a lane runs: the message that it takes is off the lane. -/
def opened (s : Session) (source : String) : Session :=
  match (s.lane source).work, (s.lane source).queue with
  | none, _ :: queue => s.setLane source { queue }
  | _, _ => s

/-- The turn of a lane in an open session, if it has anything to do. -/
def turn (s : Session) (source : String) : Option Turn :=
  match (s.lane source).work, (s.lane source).queue with
  | some delivery, _ => if delivery.wake ≤ s.clock then some (s.nextTurn delivery) else none
  | none, [] => none
  | none, .deliver event :: _ => some ((s.opened source).deliverTurn event)
  | none, .refire action event :: _ => some ((s.opened source).refireTurn action event)

/-- Writes several records. -/
def recordAll (s : Session) (records : List Record) : Session :=
  { s with journal := s.journal ++ records }

/-- The end of a turn: a delivery is under way, or the message is counted off. -/
def endTurn (s : Session) (source : String) : Option Delivery → Session
  | none => s.finishWork source
  | some delivery => s.setLane source { s.lane source with work := some delivery }

/-! ### The stretches of work of a turn -/

lemma emits_execution {s : Session} (hc : s.closed = false) (index : Nat) (event : Event) :
    s.Emits (s.postsOf (s.execution index event).completions) (s.execution index event).records
      (s.execute index event) := by
  rw [execution]
  cases he : s.tree.entity? index with
  | none =>
      rw [execute, he]
      exact .refl s
  | some e =>
      have h := emits_execute he event
      rw [if_neg (by simp [hc])] at h
      simpa [postsOf] using h

lemma emits_recordAll (s : Session) (records : List Record) :
    s.Emits [] records (s.recordAll records) where
  tree := .refl _
  host := rfl
  clock := rfl
  closed := rfl
  lane source := by simp [recordAll, lane]
  journal := rfl
  loads := List.prefix_refl _
  issues := .of_eq rfl rfl
  numbered h := h.congr rfl rfl
  balance := rfl

lemma postsOf_congr {s t : Session} (h : s.tree.SameStructure t.tree)
    (completions : List Completion) : t.postsOf completions = s.postsOf completions := by
  rw [postsOf]
  congr 1
  exact funext fun c => messagesOf_congr h c

lemma postsOf_append (s : Session) (first second : List Completion) :
    s.postsOf (first ++ second) = s.postsOf first ++ s.postsOf second := by
  simp [postsOf]

/-- Stretches of work follow one another, in terms of what they end. -/
lemma Emits.append {s t u : Session} {first second : Emission}
    (h : s.Emits (s.postsOf first.completions) first.records t)
    (h' : t.Emits (t.postsOf second.completions) second.records u) :
    s.Emits (s.postsOf (first.append second).completions) (first.append second).records u := by
  rw [postsOf_congr h.tree] at h'
  rw [Emission.append, postsOf_append]
  exact h.trans h'

lemma emits_refireStep {s : Session} (hc : s.closed = false) (event : Event)
    (step : PlannedStep) :
    s.Emits (s.postsOf (s.refireEmission event step).completions)
      (s.refireEmission event step).records (s.refireStep event step) := by
  cases step with
  | run run => exact emits_execution hc run.action event
  | skip actionId reason => exact s.emits_record event (some actionId) (.skipped reason)

lemma emits_refireSteps {s : Session} (hc : s.closed = false) (event : Event)
    (steps : List PlannedStep) :
    s.Emits (s.postsOf (s.refireEmissions event steps).completions)
      (s.refireEmissions event steps).records
      (steps.foldl (fun s step => s.refireStep event step) s) := by
  induction steps generalizing s with
  | nil => exact .refl s
  | cons step rest ih =>
      have h := emits_refireStep hc event step
      exact h.append (ih (h.closed.trans hc))

lemma workFrom_congr {s t : Session} (h : t.clock = s.clock) (event : Event)
    (steps : List PlannedStep) : t.workFrom event steps = s.workFrom event steps := by
  induction steps with
  | nil => rfl
  | cons step rest ih =>
      cases step with
      | run next => rw [workFrom, workFrom, wakeFor, wakeFor, h]
      | skip actionId reason => rw [workFrom, workFrom, ih]

/-- Going through the steps up to the next action that runs. -/
lemma proceed_eq (s : Session) (source : String) (event : Event) (steps : List PlannedStep) :
    s.proceed source event steps
      = (s.recordAll (skipRecords event steps)).endTurn source (s.workFrom event steps) := by
  induction steps generalizing s with
  | nil => simp [proceed, recordAll, skipRecords, workFrom, endTurn]
  | cons step rest ih =>
      cases step with
      | run next => simp [proceed, recordAll, skipRecords, workFrom, endTurn, lane]
      | skip actionId reason =>
          rw [proceed, ih]
          have hw : (s.record event (some actionId) (.skipped reason)).workFrom event rest
              = s.workFrom event (.skip actionId reason :: rest) := by
            rw [workFrom]
            exact workFrom_congr (by rfl) event rest
          rw [hw]
          simp [record, recordAll, skipRecords, skipRecord]

/-! ### The end of a turn -/

@[simp] lemma endTurn_tree (s : Session) (source : String) (work : Option Delivery) :
    (s.endTurn source work).tree = s.tree := by
  cases work <;> rfl

@[simp] lemma endTurn_host (s : Session) (source : String) (work : Option Delivery) :
    (s.endTurn source work).host = s.host := by
  cases work <;> rfl

@[simp] lemma endTurn_clock (s : Session) (source : String) (work : Option Delivery) :
    (s.endTurn source work).clock = s.clock := by
  cases work <;> rfl

@[simp] lemma endTurn_closed (s : Session) (source : String) (work : Option Delivery) :
    (s.endTurn source work).closed = s.closed := by
  cases work <;> rfl

@[simp] lemma endTurn_journal (s : Session) (source : String) (work : Option Delivery) :
    (s.endTurn source work).journal = s.journal := by
  cases work <;> rfl

@[simp] lemma endTurn_loads (s : Session) (source : String) (work : Option Delivery) :
    (s.endTurn source work).loads = s.loads := by
  cases work <;> rfl

@[simp] lemma endTurn_tickets (s : Session) (source : String) (work : Option Delivery) :
    (s.endTurn source work).tickets = s.tickets := by
  cases work <;> rfl

lemma lane_endTurn (s : Session) (source other : String) (work : Option Delivery) :
    (s.endTurn source work).lane other
      = if source = other then { s.lane source with work } else s.lane other := by
  cases work with
  | none => exact s.lane_setLane source other _
  | some delivery => exact s.lane_setLane source other _

/-- The account while a lane takes its turn: its message is counted, but neither on the lane nor
under way. -/
def Carries (s : Session) (source : String) : Prop :=
  s.pending + (s.lane source).work.toList.length = s.backlog + 1

lemma Emits.carries {s t : Session} {posts : List (String × Message)} {records : List Record}
    (h : s.Emits posts records t) {source : String} (hs : s.Carries source) : t.Carries source := by
  have hb := h.balance
  have hw : (t.lane source).work = (s.lane source).work := by rw [h.lane]; rfl
  rw [Carries] at *
  rw [hw]
  omega

/-- At the end of a turn the account is settled. -/
lemma pending_endTurn {s : Session} {source : String} (h : s.Carries source)
    (work : Option Delivery) :
    (s.endTurn source work).pending = (s.endTurn source work).backlog := by
  have hle := s.weight_le_backlog source
  simp only [Carries, Lane.weight] at h hle
  cases work with
  | none =>
      have hp : (s.endTurn source none).pending = s.pending - 1 := rfl
      have hb : (s.endTurn source none).backlog + (s.lane source).weight
          = s.backlog + (s.lane source).queue.length := s.backlog_setLane source _
      simp only [Lane.weight] at hb
      omega
  | some delivery =>
      have hp : (s.endTurn source (some delivery)).pending = s.pending := rfl
      have hb : (s.endTurn source (some delivery)).backlog + (s.lane source).weight
          = s.backlog + ((s.lane source).queue.length + 1) := s.backlog_setLane source _
      simp only [Lane.weight] at hb
      omega

/-! ### The whole turn -/

@[simp] lemma opened_tree (s : Session) (source : String) : (s.opened source).tree = s.tree := by
  rw [opened]
  split <;> rfl

@[simp] lemma opened_host (s : Session) (source : String) : (s.opened source).host = s.host := by
  rw [opened]
  split <;> rfl

@[simp] lemma opened_clock (s : Session) (source : String) : (s.opened source).clock = s.clock := by
  rw [opened]
  split <;> rfl

@[simp] lemma opened_closed (s : Session) (source : String) :
    (s.opened source).closed = s.closed := by
  rw [opened]
  split <;> rfl

@[simp] lemma opened_journal (s : Session) (source : String) :
    (s.opened source).journal = s.journal := by
  rw [opened]
  split <;> rfl

@[simp] lemma opened_loads (s : Session) (source : String) : (s.opened source).loads = s.loads := by
  rw [opened]
  split <;> rfl

@[simp] lemma opened_tickets (s : Session) (source : String) :
    (s.opened source).tickets = s.tickets := by
  rw [opened]
  split <;> rfl

@[simp] lemma opened_pending (s : Session) (source : String) :
    (s.opened source).pending = s.pending := by
  rw [opened]
  split <;> rfl

lemma opened_of_work {s : Session} {source : String} {delivery : Delivery}
    (hw : (s.lane source).work = some delivery) : s.opened source = s := by
  rw [opened]
  rw [hw]

lemma opened_of_queue {s : Session} {source : String} {message : Message} {queue : List Message}
    (hw : (s.lane source).work = none) (hq : (s.lane source).queue = message :: queue) :
    s.opened source = s.setLane source { queue } := by
  rw [opened]
  rw [hw, hq]

/-- Only the own lane changes when a turn begins: its first message leaves if nothing is under
way. -/
lemma lane_opened (s : Session) (source other : String) :
    (s.opened source).lane other
      = if source = other ∧ (s.lane source).work = none then
          { s.lane other with queue := (s.lane other).queue.tail }
        else s.lane other := by
  rw [opened]
  split
  · rename_i message queue hw hq
    rw [lane_setLane]
    by_cases h : source = other
    · subst h
      simp [hw, hq]
    · simp [h]
  · rename_i hnot
    split_ifs with h
    · obtain ⟨rfl, hw⟩ := h
      cases hq : (s.lane source).queue with
      | nil =>
          rw [List.tail_nil, ← hq]
      | cons message queue => exact absurd hq (hnot message queue hw)
    · rfl

/-- A turn that has something to do begins with one message carried. -/
lemma carries_opened {s : Session} {source : String} (h : s.pending = s.backlog)
    (hturn : (s.turn source).isSome) : (s.opened source).Carries source := by
  cases hd : (s.lane source).work with
  | some delivery =>
      rw [opened_of_work hd, Carries, hd, h]
      rfl
  | none =>
      cases hq : (s.lane source).queue with
      | nil => simp [turn, hd, hq] at hturn
      | cons message queue =>
          have hb := s.backlog_setLane source { queue }
          have hp : (s.setLane source { queue }).pending = s.pending := rfl
          simp only [Lane.weight, hd, hq, Option.toList_none, List.length_nil, List.length_cons,
            Nat.add_zero] at hb
          rw [opened_of_queue hd hq, Carries, lane_setLane, if_pos rfl]
          simp only [Option.toList_none, List.length_nil]
          omega

/-- Going on with a delivery is a stretch of work and the end of the turn. -/
lemma runNext_eq {s : Session} (hc : s.closed = false) (source : String) (delivery : Delivery) :
    ∃ t, s.Emits (s.postsOf (s.nextTurn delivery).completions) (s.nextTurn delivery).records t
      ∧ s.runNext source delivery = t.endTurn source (s.nextTurn delivery).work := by
  have hexecuted := (emits_execution hc delivery.next.action delivery.event).trans
    (emits_scheduleRepeat _ delivery.event delivery.next)
  have hskipped := hexecuted.trans (emits_recordAll _ (skipRecords delivery.event delivery.rest))
  refine ⟨_, by simpa [nextTurn, Emission.append] using hskipped, ?_⟩
  rw [runNext, proceed_eq, workFrom_congr hexecuted.clock]
  rfl

/-- Taking an event is a stretch of work and the end of the turn. -/
lemma deliver_eq (s : Session) (source : String) (event : Event) :
    ∃ t, s.Emits (s.postsOf (s.deliverTurn event).completions) (s.deliverTurn event).records t
      ∧ s.deliver source event = t.endTurn source (s.deliverTurn event).work := by
  rw [deliver, deliverTurn]
  cases s.plan event none with
  | none => exact ⟨_, .refl _, rfl⟩
  | some plan =>
      cases plan with
      | dropped reason => exact ⟨_, emits_record _ event none (.skipped reason), rfl⟩
      | steps steps =>
          have hdelivered := emits_record s event none (.delivered steps.length)
          refine ⟨_, hdelivered.trans (emits_recordAll _ (skipRecords event steps)), ?_⟩
          dsimp only
          rw [proceed_eq, workFrom_congr hdelivered.clock]

/-- Taking the repetition of an action is a stretch of work and the end of the turn. -/
lemma refire_eq {s : Session} (hc : s.closed = false) (source : String) (action : Nat)
    (event : Event) :
    ∃ t, s.Emits (s.postsOf (s.refireTurn action event).completions)
        (s.refireTurn action event).records t
      ∧ s.refire source action event = t.endTurn source (s.refireTurn action event).work := by
  rw [refire, refireTurn]
  cases s.plan event (some action) with
  | none => exact ⟨_, .refl _, rfl⟩
  | some plan =>
      cases plan with
      | dropped reason => exact ⟨_, .refl _, rfl⟩
      | steps steps => exact ⟨_, emits_refireSteps hc event steps, rfl⟩

/-- **The move of a lane is its turn**: a stretch of work that starts when the message is off the
lane, and the end of the turn. -/
theorem advanceLane_eq {s : Session} (hc : s.closed = false) (source : String) :
    match s.turn source with
    | none => s.advanceLane source = s
    | some turn => ∃ t, (s.opened source).Emits (s.postsOf turn.completions) turn.records t
        ∧ s.advanceLane source = t.endTurn source turn.work := by
  rw [turn, advanceLane]
  cases hw : (s.lane source).work with
  | some delivery =>
      by_cases hwake : delivery.wake ≤ s.clock
      · simp only [if_pos hwake, hc, Bool.false_eq_true, if_false]
        rw [opened_of_work hw]
        exact runNext_eq hc source delivery
      · simp only [if_neg hwake, hc, Bool.false_eq_true, if_false]
  | none =>
      cases hq : (s.lane source).queue with
      | nil => rfl
      | cons message queue =>
          have hopen : (s.setLane source { queue }).closed = false := hc
          rw [opened_of_queue hw hq]
          simp only [hc, Bool.false_eq_true, if_false]
          cases message with
          | deliver event => exact deliver_eq (s.setLane source { queue }) source event
          | refire action event => exact refire_eq hopen source action event

end Session

end Componentry

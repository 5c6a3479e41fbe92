import Mathlib.Tactic
import Componentry.Proofs.Session.Blocks
import Componentry.Proofs.Session.Retrigger
import Componentry.Proofs.Session.Without
/-!
# Gates

A lane that takes a message decides at that moment which of the actions run that its source binds to
the event.  An action is admitted (`Session.admits`) if both of its gates are open in the tree and
for the event as they are then; any other one is refused (`Session.refusal?`).

What is decided stays decided.  A delivery keeps the steps that are left on its lane, and what it
has run together with what it has still to run is the same after every move, whatever the move does
to the tree, and so it is with what it skips (`left_apply`).  `run_gates` draws the conclusion, and
says what a refused action does to the session: it would be the same without it
(`Session.takenFor`), but for the record.
-/

namespace Componentry

/-- The action that a message is about, if it is about one only. -/
def Message.only? : Message → Option Nat
  | .deliver _ => none
  | .refire action _ => some action

/-- The record of a step that skips an action. -/
def PlannedStep.skipRecord? (event : Event) : PlannedStep → Option Record
  | .run _ => none
  | .skip actionId reason => some (skipRecord event actionId reason)

/-- What a delivery under way is going to run. -/
def Delivery.firings (delivery : Delivery) : List Firing :=
  ((.run delivery.next :: delivery.rest).filterMap PlannedStep.action?).map (⟨·, delivery.event⟩)

/-- The records of the actions that a delivery under way is going to skip. -/
def Delivery.skips (delivery : Delivery) : List Record :=
  delivery.rest.filterMap (PlannedStep.skipRecord? delivery.event)

/-- What the delivery under way on a lane is going to run. -/
def Lane.firingsLeft (lane : Lane) : List Firing := lane.work.toList.flatMap Delivery.firings

/-- The records of the actions that the delivery under way on a lane is going to skip. -/
def Lane.skipsLeft (lane : Lane) : List Record := lane.work.toList.flatMap Delivery.skips

namespace Session

variable {s : Session} {source : String} {message : Message} {event : Event} {index : Nat}
  {e : Entity}

/-! ### Gates as they stand -/

/-- What the gates of an event can see now. -/
def scopeOn (s : Session) (event : Event) : Scope := { tree := s.tree, event := some event }

/-- The actions that a message to an entity is about. -/
def boundTo (s : Session) (index : Nat) (message : Message) : List Nat :=
  (s.tree.boundActions index message.event.name).filter fun action =>
    message.only?.all (· = action)

/-- Whether both gates of an action are open now, for an event. -/
def admits (s : Session) (event : Event) (action : Nat) : Bool :=
  (s.tree.entity? action).any fun e =>
    Gate.isOpen s.host.evaluator (s.scopeOn event) e.enabled = .ok true
      ∧ Gate.isOpen s.host.evaluator (s.scopeOn event) e.condition = .ok true

/-- The record that an action is skipped because a gate of it is not open now, for an event. -/
def refusal? (s : Session) (event : Event) (action : Nat) : Option Record :=
  (s.tree.entity? action).bind fun e =>
    (s.skipReason? e (s.scopeOn event)).map (skipRecord event e.id)

/-- Whether a record is the refusal of one of some actions now, for an event. -/
def isRefusal (s : Session) (event : Event) (actions : List Nat) (record : Record) : Bool :=
  record ∈ actions.filterMap (s.refusal? event)

/-- The message that a lane takes next comes to the bindings of its source: the session is open, and
the source is not suppressed and, if it is a control, enabled. -/
structure Reaches (s : Session) (source : String) (message : Message) (index : Nat) (e : Entity) :
    Prop where
  isOpen : s.closed = false
  idle : (s.lane source).work = none
  first : (s.lane source).queue.head? = some message
  found : s.tree.find? message.event.source = some index
  entity : s.tree.entity? index = some e
  shown : e.suppressed = false
  enabled : e.role = .control →
    Gate.isOpen s.host.evaluator (s.scopeOn message.event) e.enabled = .ok true

/-- An action is not skipped if both of its gates are open. -/
lemma skipReason?_eq_none_iff {action : Entity} {scope : Scope} :
    s.skipReason? action scope = none
      ↔ Gate.isOpen s.host.evaluator scope action.enabled = .ok true
        ∧ Gate.isOpen s.host.evaluator scope action.condition = .ok true := by
  rw [skipReason?]
  split
  · rename_i henabled
    simp [henabled]
  · rename_i henabled
    simp [henabled]
  · rename_i henabled
    rw [henabled]
    split <;> simp_all

/-- An action is admitted and runs, or it is refused and skipped, or there is no such action. -/
lemma planStep_cases (s : Session) (source : Entity) (event : Event) (action : Nat) :
    (∃ run, s.planStep source (s.scopeOn event) action = some (.run run) ∧ run.action = action
        ∧ s.admits event action = true ∧ s.refusal? event action = none)
      ∨ (∃ actionId reason,
        s.planStep source (s.scopeOn event) action = some (.skip actionId reason)
          ∧ s.admits event action = false
          ∧ s.refusal? event action = some (skipRecord event actionId reason))
      ∨ (s.planStep source (s.scopeOn event) action = none ∧ s.admits event action = false
          ∧ s.refusal? event action = none) := by
  rw [planStep, admits, refusal?]
  cases he : s.tree.entity? action with
  | none => exact .inr (.inr ⟨rfl, rfl, rfl⟩)
  | some e =>
      have hgates : s.skipReason? e (s.scopeOn event) = none ↔ _ := skipReason?_eq_none_iff
      cases hr : s.skipReason? e (s.scopeOn event) with
      | none =>
          exact .inl ⟨⟨action, e.id, e.delay,
            if source.behaviour.supportsRepetition then e.repeatDelay else none⟩,
            by simp [hr], rfl, by simpa using hgates.mp hr, by simp [hr]⟩
      | some reason =>
          rw [hr] at hgates
          refine .inr (.inl ⟨e.id, reason, by simp [hr], ?_, by simp [hr]⟩)
          simpa using hgates.mpr.mt (by simp)

lemma filterMap_planStep_action? (s : Session) (source : Entity) (event : Event)
    (actions : List Nat) :
    (actions.filterMap (s.planStep source (s.scopeOn event))).filterMap PlannedStep.action?
      = actions.filter (s.admits event) := by
  rw [List.filterMap_filterMap, ← List.filterMap_eq_filter]
  refine List.filterMap_congr fun action _ => ?_
  obtain ⟨run, hstep, rfl, hopen, -⟩ | ⟨actionId, reason, hstep, hshut, -⟩ | ⟨hstep, hshut, -⟩ :=
    s.planStep_cases source event action
  · simp [hstep, hopen, PlannedStep.action?, Option.guard]
  · simp [hstep, hshut, PlannedStep.action?, Option.guard]
  · simp [hstep, hshut, Option.guard]

lemma filterMap_planStep_skipRecord? (s : Session) (source : Entity) (event : Event)
    (actions : List Nat) :
    (actions.filterMap (s.planStep source (s.scopeOn event))).filterMap
        (PlannedStep.skipRecord? event)
      = actions.filterMap (s.refusal? event) := by
  rw [List.filterMap_filterMap]
  refine List.filterMap_congr fun action _ => ?_
  obtain ⟨run, hstep, -, -, hno⟩ | ⟨actionId, reason, hstep, -, hskip⟩ | ⟨hstep, -, hno⟩ :=
    s.planStep_cases source event action
  · simp [hstep, hno, PlannedStep.skipRecord?]
  · simp [hstep, hskip, PlannedStep.skipRecord?]
  · simp [hstep, hno]

/-- The steps of actions whose refusals are left out are those of the admitted ones. -/
lemma filter_planStep_stays {gone : Record → Bool} {actions : List Nat}
    (h : ∀ record ∈ actions.filterMap (s.refusal? event), gone record = true) (source : Entity) :
    (actions.filterMap (s.planStep source (s.scopeOn event))).filter (PlannedStep.stays gone event)
      = (actions.filter (s.admits event)).filterMap (s.planStep source (s.scopeOn event)) := by
  rw [List.filter_filterMap, List.filterMap_filter]
  refine List.filterMap_congr fun action ha => ?_
  obtain ⟨run, hstep, -, hopen, -⟩ | ⟨actionId, reason, hstep, hshut, hskip⟩ | ⟨hstep, hshut, -⟩ :=
    s.planStep_cases source event action
  · simp [hstep, hopen, PlannedStep.stays, Option.filter]
  · have hgone := h _ (List.mem_filterMap.mpr ⟨action, ha, hskip⟩)
    simp [hstep, hshut, hgone, PlannedStep.stays, Option.filter]
  · simp [hstep, hshut]

/-- What is going to happen to a message that comes to the bindings of its source. -/
lemma Reaches.plan_eq (h : s.Reaches source message index e) :
    s.plan message.event message.only?
      = some (.steps ((s.boundTo index message).filterMap
          (s.planStep e (s.scopeOn message.event)))) := by
  have hkept : s.dropReason? e (s.scopeOn message.event) = none := by
    rw [dropReason?]
    split_ifs with hhidden hcontrol
    · rw [h.shown] at hhidden
      cases hhidden
    · rw [h.enabled hcontrol]
    · rfl
  rw [scopeOn] at hkept
  simp only [plan, h.found, h.entity, Option.bind_eq_bind, Option.bind_some, hkept]
  rfl

lemma plan_opened (s : Session) (source : String) (event : Event) (only : Option Nat) :
    (s.opened source).plan event only = s.plan event only := by
  rw [opened]
  split <;> rfl

/-! ### What is left of a delivery -/

lemma workFrom_firings (s : Session) (event : Event) (steps : List PlannedStep) :
    (s.workFrom event steps).toList.flatMap Delivery.firings
      = (steps.filterMap PlannedStep.action?).map (⟨·, event⟩) := by
  induction steps with
  | nil => rfl
  | cons step rest ih =>
      cases step with
      | run next => simp [workFrom, Delivery.firings]
      | skip actionId reason => rw [workFrom, ih, List.filterMap_cons_none rfl]

lemma skipRecords_append_skips (s : Session) (event : Event) (steps : List PlannedStep) :
    skipRecords event steps ++ (s.workFrom event steps).toList.flatMap Delivery.skips
      = steps.filterMap (PlannedStep.skipRecord? event) := by
  induction steps with
  | nil => rfl
  | cons step rest ih =>
      cases step with
      | run next =>
          rw [List.filterMap_cons_none rfl]
          simp [workFrom, skipRecords, Delivery.skips]
      | skip actionId reason =>
          rw [workFrom, skipRecords, List.cons_append, ih]
          rfl

lemma filter_isSkip_skipRecords (event : Event) (steps : List PlannedStep) :
    (skipRecords event steps).filter Record.isSkip = skipRecords event steps := by
  induction steps with
  | nil => rfl
  | cons step rest ih =>
      cases step with
      | run next => rfl
      | skip actionId reason => rw [skipRecords, List.filter_cons_of_pos rfl, ih]

lemma filter_isSkip_execution (s : Session) (index : Nat) (event : Event) :
    (s.execution index event).records.filter Record.isSkip = [] := by
  rw [execution]
  cases s.tree.entity? index with
  | none => rfl
  | some e =>
      dsimp only
      rw [List.filter_cons_of_neg (by simp [isSkip_executionRecord]), List.filter_nil]

lemma filter_isSkip_refireEmissions (s : Session) (event : Event) (steps : List PlannedStep) :
    (s.refireEmissions event steps).records.filter Record.isSkip
      = steps.filterMap (PlannedStep.skipRecord? event) := by
  induction steps generalizing s with
  | nil => rfl
  | cons step rest ih =>
      rw [refireEmissions, Emission.append, List.filter_append, ih]
      cases step with
      | run run =>
          rw [refireEmission, filter_isSkip_execution, List.nil_append,
            List.filterMap_cons_none rfl]
      | skip actionId reason => rfl

/-- The executions that a move makes for a source. -/
def firingsOn (s : Session) (source : String) (m : Move) : List Firing :=
  (s.firings m).filter fun firing => firing.event.source = source

/-- The records that a move adds to the journal about actions that are skipped for a source. -/
def skipsOn (s : Session) (source : String) (m : Move) : List Record :=
  (s.written m).filter fun record => record.source = source ∧ record.isSkip = true

/-- The executions that are made for a source along a run, in order. -/
def runFirings (s : Session) (source : String) (moves : List Move) : List Firing :=
  s.along (fun s m => s.firingsOn source m) moves

/-- The records about actions that are skipped for a source along a run, in order. -/
def runSkips (s : Session) (source : String) (moves : List Move) : List Record :=
  s.along (fun s m => s.skipsOn source m) moves

/-- Only the lane of a source runs actions for it. -/
lemma firingsOn_of_ne (hs : s.Sourced) {m : Move} (hm : m ≠ .advance (.lane source)) :
    s.firingsOn source m = [] := by
  rw [firingsOn, List.filter_eq_nil_iff]
  intro firing hfiring hsource
  have hof : firing.event.source = source := by simpa using hsource
  obtain ⟨delivery, hresumed, rfl⟩ | ⟨mover, queue, rfl, hqueue⟩ := firings_cases hfiring
  · obtain ⟨mover, rfl, -, hwork, -⟩ := resumed_eq_some_iff.mp hresumed
    have hmover : delivery.event.source = mover := hs.work mover delivery hwork
    exact hm (by rw [← hof, hmover])
  · have hmover := hs.queue mover _ (hqueue ▸ List.mem_cons_self)
    exact hm (by rw [← hof, ← hmover]; rfl)

/-- Only the lane of a source skips actions for it. -/
lemma skipsOn_of_ne (hs : s.Sourced) {m : Move} (hm : m ≠ .advance (.lane source)) :
    s.skipsOn source m = [] := by
  rw [skipsOn, List.filter_eq_nil_iff]
  intro record hmem hskip
  have hof : record.source = source ∧ record.isSkip = true := by simpa using hskip
  have hcounts := List.filter_eq_nil_iff.mp (laneRecords_of_ne hs hm) record hmem
  obtain hrefused : record.isRefusedLoad = true := by
    simp only [countsFor, hof.1, decide_eq_true_eq, true_and, not_not] at hcounts
    exact hcounts.2
  have hrecord : record = refusedRecord record.source := of_decide_eq_true hrefused
  rw [hrecord] at hof
  exact absurd hof.2 (by simp [refusedRecord, Record.isSkip])

/-- The skips of a turn. -/
lemma skipsOn_of_turn (hc : s.closed = false) (hs : s.Sourced) {turn : Turn}
    (hturn : s.turn source = some turn) :
    s.skipsOn source (.advance (.lane source)) = turn.records.filter Record.isSkip := by
  have hrecords : s.records (.advance (.lane source)) = turn.records := by
    simp [records, hc, hturn]
  rw [skipsOn, written_eq, hrecords]
  refine List.filter_congr fun record hr => ?_
  simp [hs.turn_source hturn hr]

lemma apply_lane_work (hc : s.closed = false) {turn : Turn} (hturn : s.turn source = some turn) :
    ((s.apply (.advance (.lane source))).lane source).work = turn.work := by
  rw [work_apply_lane, if_neg (by simp [hc]), hturn]

lemma turn_of_wake {delivery : Delivery} (hw : (s.lane source).work = some delivery)
    (hwake : delivery.wake ≤ s.clock) : s.turn source = some (s.nextTurn delivery) := by
  rw [turn, hw]
  exact if_pos hwake

/-- A move goes on with the delivery under way of a source, or it does nothing for the source. -/
lemma goesOn_cases (hc : s.closed = false) (hs : s.Sourced) {delivery : Delivery}
    (hw : (s.lane source).work = some delivery) (m : Move) :
    (m = .advance (.lane source) ∧ delivery.wake ≤ s.clock)
      ∨ (((s.apply m).lane source).work = some delivery ∧ s.firingsOn source m = []
        ∧ s.skipsOn source m = []) := by
  by_cases hm : m = .advance (.lane source)
  · subst hm
    by_cases hwake : delivery.wake ≤ s.clock
    · exact .inl ⟨rfl, hwake⟩
    · have hturn : s.turn source = none := by
        rw [turn, hw]
        exact if_neg hwake
      refine .inr ⟨by rw [apply_lane_of_rest hc hturn, hw], ?_, ?_⟩
      · simp [firingsOn, firings, hc, hw, hwake]
      · simp [skipsOn, written_eq, records, hc, hturn]
  · exact .inr ⟨((s.step_apply m).work source hm).trans hw, firingsOn_of_ne hs hm,
      skipsOn_of_ne hs hm⟩

/-- **What a delivery runs and skips stays what it is**: what a move runs and skips for the source,
together with what is left then, is what was left before. -/
lemma left_apply (hc : s.closed = false) (hs : s.Sourced) {delivery : Delivery}
    (hw : (s.lane source).work = some delivery) (m : Move) :
    s.firingsOn source m ++ ((s.apply m).lane source).firingsLeft = (s.lane source).firingsLeft
      ∧ s.skipsOn source m ++ ((s.apply m).lane source).skipsLeft
        = (s.lane source).skipsLeft := by
  rw [Lane.firingsLeft, Lane.firingsLeft, Lane.skipsLeft, Lane.skipsLeft, hw]
  obtain ⟨rfl, hwake⟩ | ⟨hwork, hfirings, hskips⟩ := goesOn_cases hc hs hw m
  · have hof : delivery.event.source = source := hs.work source delivery hw
    have hturn := turn_of_wake hw hwake
    have hfirings : s.firingsOn source (.advance (.lane source))
        = [⟨delivery.next.action, delivery.event⟩] := by
      simp [firingsOn, firings, hc, hw, hwake, hof]
    rw [apply_lane_work hc hturn, hfirings, skipsOn_of_turn hc hs hturn, nextTurn]
    constructor
    · rw [workFrom_firings]
      simp [Delivery.firings, PlannedStep.action?]
    · rw [Emission.append, List.filter_append, filter_isSkip_execution, List.nil_append,
        filter_isSkip_skipRecords, skipRecords_append_skips]
      simp [Delivery.skips]
  · rw [hwork, hfirings, hskips]
    exact ⟨List.nil_append _, List.nil_append _⟩

/-! ### Along a delivery -/

/-- A delivery of a source is under way before each move of a run, and none of the moves is a
teardown. -/
def Delivers (s : Session) (source : String) : List Move → Prop
  | [] => True
  | m :: moves =>
    (s.lane source).work.isSome ∧ m ≠ .teardown ∧ (s.apply m).Delivers source moves

instance decidableDelivers (source : String) :
    (s : Session) → (moves : List Move) → Decidable (s.Delivers source moves)
  | _, [] => .isTrue trivial
  | s, m :: moves =>
    have := decidableDelivers source (s.apply m) moves
    inferInstanceAs (Decidable ((s.lane source).work.isSome ∧ m ≠ .teardown
      ∧ (s.apply m).Delivers source moves))

lemma Delivers.append {moves more : List Move} (h : s.Delivers source moves)
    (hmore : (s.run moves).Delivers source more) : s.Delivers source (moves ++ more) := by
  induction moves generalizing s with
  | nil => exact hmore
  | cons m moves ih => exact ⟨h.1, h.2.1, ih h.2.2 hmore⟩

lemma Delivers.closed_run {moves : List Move} (h : s.Delivers source moves)
    (hc : s.closed = false) : (s.run moves).closed = false := by
  induction moves generalizing s with
  | nil => exact hc
  | cons m moves ih => exact ih h.2.2 (by simp [closed_apply, hc, h.2.1])

/-- **What a delivery runs and skips stays what it is** as long as it is under way. -/
lemma Delivers.run_left {moves : List Move} (h : s.Delivers source moves) (hc : s.closed = false)
    (ht : s.tree.Sound) (hs : s.Sourced) :
    s.runFirings source moves ++ ((s.run moves).lane source).firingsLeft
        = (s.lane source).firingsLeft
      ∧ s.runSkips source moves ++ ((s.run moves).lane source).skipsLeft
        = (s.lane source).skipsLeft := by
  induction moves generalizing s with
  | nil => exact ⟨rfl, rfl⟩
  | cons m moves ih =>
      obtain ⟨hwork, hm, hrest⟩ := h
      obtain ⟨delivery, hw⟩ := Option.isSome_iff_exists.mp hwork
      have hopen : (s.apply m).closed = false := by simp [closed_apply, hc, hm]
      obtain ⟨hfirst, hfirstSkips⟩ := left_apply hc hs hw m
      obtain ⟨hlater, hlaterSkips⟩ :=
        ih hrest hopen ((s.step_apply m).tree.sound ht) (hs.apply ht m)
      constructor
      · rw [runFirings, along_cons, List.append_assoc, run_cons, ← runFirings, hlater, hfirst]
      · rw [runSkips, along_cons, List.append_assoc, run_cons, ← runSkips, hlaterSkips, hfirstSkips]

lemma workFrom_rest_length {steps : List PlannedStep} {delivery : Delivery}
    (h : s.workFrom event steps = some delivery) : delivery.rest.length < steps.length := by
  induction steps with
  | nil => cases h
  | cons step rest ih =>
      cases step with
      | run next =>
          cases h
          exact Nat.lt_succ_self _
      | skip actionId reason => exact (ih h).trans (Nat.lt_succ_self _)

/-- Every delivery can come to its end: its lane takes one turn after the other, each when it is
time. -/
lemma exists_delivers (hc : s.closed = false) (source : String) :
    ∃ moves, s.Delivers source moves ∧ ((s.run moves).lane source).work = none := by
  cases hw : (s.lane source).work with
  | none => exact ⟨[], trivial, hw⟩
  | some delivery =>
      -- The steps that are left get fewer with every turn.
      induction hlen : delivery.rest.length using Nat.strong_induction_on
        generalizing s delivery with
      | _ n ih =>
          let t := s.apply (.elapse delivery.wake)
          have hwake : (t.lane source).work = some delivery := hw
          have hopen : t.closed = false := hc
          have hnext := apply_lane_work hopen
            (turn_of_wake hwake (le_max_right s.clock delivery.wake))
          have hstays : (t.apply (.advance (.lane source))).closed = false := by
            simp [closed_apply, hopen]
          have hfirst : s.Delivers source [.elapse delivery.wake, .advance (.lane source)] :=
            ⟨by simp [hw], by simp, by rw [hwake]; rfl, by simp, trivial⟩
          cases hwork : (t.nextTurn delivery).work with
          | none => exact ⟨_, hfirst, hnext.trans hwork⟩
          | some later =>
              have hshorter : later.rest.length < n := hlen ▸ workFrom_rest_length hwork
              obtain ⟨moves, hmoves, hend⟩ :=
                ih _ hshorter hstays later (hnext.trans hwork) rfl
              exact ⟨_ ++ moves, hfirst.append hmoves, by rw [run_append]; exact hend⟩

/-! ### The message that is taken -/

/-- The session after a lane has taken its message as if it were about certain actions. -/
def takenFor (s : Session) (source : String) (message : Message) (index : Nat) (e : Entity)
    (actions : List Nat) : Session :=
  let steps := actions.filterMap (s.planStep e (s.scopeOn message.event))
  match message with
  | .deliver event =>
    ((s.opened source).record event none (.delivered (s.boundTo index message).length)).proceed
      source event steps
  | .refire _ event =>
    (steps.foldl (fun s step => s.refireStep event step) (s.opened source)).finishWork source

lemma Reaches.queue_eq (h : s.Reaches source message index e) :
    ∃ queue, (s.lane source).queue = message :: queue :=
  List.head?_eq_some_iff.mp h.first

/-- The lane takes its message as one about the actions that are bound to it. -/
lemma Reaches.apply_eq (h : s.Reaches source message index e) (ht : s.tree.Sound) :
    s.apply (.advance (.lane source))
      = s.takenFor source message index e (s.boundTo index message) := by
  obtain ⟨queue, hq⟩ := h.queue_eq
  have hopened := opened_of_queue h.idle hq
  have hplan := (s.plan_opened source message.event message.only?).trans h.plan_eq
  have hplans : List.Forall₂ s.tree.Plans (s.boundTo index message)
      ((s.boundTo index message).filterMap (s.planStep e (s.scopeOn message.event))) :=
    forall₂_filterMap fun action ha => planStep_plans (.refl _) e _
      (ht.lt_size_of_mem_boundActions (List.mem_of_mem_filter ha))
  have hlength := hplans.length_eq.symm
  show s.advanceLane source = _
  simp only [advanceLane, h.idle, hq, h.isOpen, Bool.false_eq_true, if_false, ← hopened]
  cases message with
  | deliver event =>
      simp only [Message.event, Message.only?] at hplan hlength
      simp only [take, deliver, hplan, takenFor, hlength, Message.event]
  | refire action event =>
      simp only [Message.event, Message.only?] at hplan
      simp only [take, refire, hplan, takenFor, Message.event]

/-- What the lane runs and skips when it takes its message, together with what is left then, are the
actions that are admitted and those that are refused. -/
lemma Reaches.left (h : s.Reaches source message index e) (hs : s.Sourced) :
    s.firingsOn source (.advance (.lane source))
          ++ ((s.apply (.advance (.lane source))).lane source).firingsLeft
        = ((s.boundTo index message).filter (s.admits message.event)).map (⟨·, message.event⟩)
      ∧ s.skipsOn source (.advance (.lane source))
          ++ ((s.apply (.advance (.lane source))).lane source).skipsLeft
        = (s.boundTo index message).filterMap (s.refusal? message.event) := by
  obtain ⟨queue, hq⟩ := h.queue_eq
  have hof : message.event.source = source := hs.queue source message (hq ▸ List.mem_cons_self)
  have hplan := (s.plan_opened source message.event message.only?).trans h.plan_eq
  rw [← s.filterMap_planStep_action? e, ← s.filterMap_planStep_skipRecord? e]
  generalize (s.boundTo index message).filterMap (s.planStep e (s.scopeOn message.event)) = steps
    at hplan
  cases message with
  | deliver event =>
      have hturn : s.turn source = some ((s.opened source).deliverTurn event) := by
        rw [turn, h.idle, hq]
      have hdeliver : (s.opened source).deliverTurn event
          = { records :=
                ⟨event.source, event.name, none, .delivered steps.length⟩ :: skipRecords event steps
              work := (s.opened source).workFrom event steps } := by
        rw [deliverTurn, show (s.opened source).plan event none = _ from hplan]
      have hfirings : s.firingsOn source (.advance (.lane source)) = [] := by
        simp [firingsOn, firings, h.isOpen, h.idle, hq]
      rw [skipsOn_of_turn h.isOpen hs hturn, Lane.firingsLeft, Lane.skipsLeft,
        apply_lane_work h.isOpen hturn, hdeliver, hfirings]
      dsimp only
      rw [List.filter_cons_of_neg (by simp [Record.isSkip]), filter_isSkip_skipRecords,
        workFrom_firings, skipRecords_append_skips]
      exact ⟨rfl, rfl⟩
  | refire action event =>
      have hturn : s.turn source = some ((s.opened source).refireTurn action event) := by
        rw [turn, h.idle, hq]
      have hrefire : (s.opened source).refireTurn action event
          = { toEmission := (s.opened source).refireEmissions event steps } := by
        rw [refireTurn, show (s.opened source).plan event (some action) = _ from hplan]
      have hfirings : s.firingsOn source (.advance (.lane source))
          = (steps.filterMap PlannedStep.action?).map (⟨·, event⟩) := by
        simp only [firingsOn, firings, h.isOpen, h.idle, hq]
        rw [refireFirings, show (s.opened source).plan event (some action) = _ from hplan]
        refine List.filter_eq_self.mpr fun firing hfiring => ?_
        obtain ⟨other, -, rfl⟩ := List.mem_map.mp hfiring
        exact decide_eq_true hof
      rw [skipsOn_of_turn h.isOpen hs hturn, Lane.firingsLeft, Lane.skipsLeft,
        apply_lane_work h.isOpen hturn, hrefire, hfirings, filter_isSkip_refireEmissions]
      simp [Message.event]

/-- **A refused action leaves no trace**: what a lane makes of its message depends on the actions
that are admitted only, but for the records of the refusals. -/
lemma takenFor_without_congr {gone : Record → Bool} {actions others : List Nat}
    (h : actions.filter (s.admits message.event) = others.filter (s.admits message.event))
    (hgone : ∀ record ∈ (actions ++ others).filterMap (s.refusal? message.event),
      gone record = true) :
    (s.takenFor source message index e actions).without gone
      = (s.takenFor source message index e others).without gone := by
  rw [List.filterMap_append, List.forall_mem_append] at hgone
  have hsteps : (actions.filterMap (s.planStep e (s.scopeOn message.event))).filter
        (PlannedStep.stays gone message.event)
      = (others.filterMap (s.planStep e (s.scopeOn message.event))).filter
        (PlannedStep.stays gone message.event) := by
    rw [filter_planStep_stays hgone.1, filter_planStep_stays hgone.2, h]
  cases message with
  | deliver event =>
      rw [Message.event] at hsteps
      rw [takenFor, takenFor, proceed_without, proceed_without, Message.event, hsteps]
  | refire action event =>
      rw [Message.event] at hsteps
      rw [takenFor, takenFor, finishWork_without, finishWork_without, refireSteps_without,
        refireSteps_without, Message.event, hsteps]

/-- An action of a message is refused, with one record, unless it is admitted. -/
lemma isSome_refusal? (ht : s.tree.Sound) {action : Nat} (ha : action ∈ s.boundTo index message) :
    (s.refusal? message.event action).isSome = !s.admits message.event action := by
  have hlt := ht.lt_size_of_mem_boundActions (List.mem_of_mem_filter ha)
  obtain ⟨e, he⟩ := Tree.lt_size_iff.mp hlt
  obtain ⟨run, -, -, hopen, hno⟩ | ⟨actionId, reason, -, hshut, hskip⟩ | ⟨hstep, -, -⟩ :=
    s.planStep_cases e message.event action
  · simp [hopen, hno]
  · simp [hshut, hskip]
  · simp [planStep, he] at hstep

/-- **Gates decide when a message is taken.**  A lane takes a message that comes to the bindings of
its source.  As long as the delivery is under way, whatever happens meanwhile, what it has run and
has still to run are the actions that were admitted at that moment, each once and in order; what it
has skipped and has still to skip are the other ones, with one record each; and the delivery can
come to its end.  The actions that are refused leave no trace but their records: if the message had
been about others as well, or about fewer, of which the same ones are admitted, every run from there
on would be the same but for the records of the refusals. -/
theorem run_gates (host : Host) (document : Document) (before : List Move) {source : String}
    {message : Message} {index : Nat} {e : Entity}
    (h : ((ofDocument host document).run before).Reaches source message index e) :
    let s := (ofDocument host document).run before
    let t := s.apply (.advance (.lane source))
    let bound := s.boundTo index message
    let event := message.event
    t = s.takenFor source message index e bound
      ∧ (∀ action ∈ bound, (s.refusal? event action).isSome = !s.admits event action)
      ∧ (∀ during, t.Delivers source during →
          s.runFirings source (.advance (.lane source) :: during)
                ++ ((t.run during).lane source).firingsLeft
              = (bound.filter (s.admits event)).map (⟨·, event⟩)
            ∧ s.runSkips source (.advance (.lane source) :: during)
                ++ ((t.run during).lane source).skipsLeft
              = bound.filterMap (s.refusal? event)
            ∧ ∃ more, t.Delivers source (during ++ more)
              ∧ ((t.run (during ++ more)).lane source).work = none)
      ∧ ∀ actions, actions.filter (s.admits event) = bound.filter (s.admits event) →
          ∀ moves, (t.run moves).without (s.isRefusal event (bound ++ actions))
            = ((s.takenFor source message index e actions).run moves).without
              (s.isRefusal event (bound ++ actions)) := by
  intro s t bound event
  have hsound : s.tree.Sound := sound_run (sound_ofDocument host document) before
  have hsourced : s.Sourced :=
    sourced_run (sourced_start host _) (sound_ofDocument host document) before
  have htaken : t = s.takenFor source message index e bound := h.apply_eq hsound
  have hopen : t.closed = false := by simp [t, closed_apply, h.isOpen, s]
  have htsound : t.tree.Sound := (s.step_apply _).tree.sound hsound
  have htsourced : t.Sourced := hsourced.apply hsound _
  refine ⟨htaken, fun action ha => isSome_refusal? hsound ha, fun during hduring => ?_,
    fun actions hactions moves => ?_⟩
  · obtain ⟨hfirst, hfirstSkips⟩ := h.left hsourced
    obtain ⟨hrest, hrestSkips⟩ := hduring.run_left hopen htsound htsourced
    refine ⟨?_, ?_, ?_⟩
    · rw [runFirings, along_cons, List.append_assoc, ← runFirings, hrest]
      exact hfirst
    · rw [runSkips, along_cons, List.append_assoc, ← runSkips, hrestSkips]
      exact hfirstSkips
    · obtain ⟨more, hmore, hend⟩ := exists_delivers (hduring.closed_run hopen) source
      exact ⟨more, hduring.append hmore, by rw [run_append]; exact hend⟩
  · refine without_run _ ?_ moves
    rw [htaken]
    exact takenFor_without_congr hactions.symm fun record hrecord => decide_eq_true hrecord

/-- A screen on whose success a door is opened after a while.  Until then one may knock, and only
then may one enter; the bell is off, and whether one may climb cannot be told. -/
def door : Document where
  members := [("id", .string "screen"), ("actions", .array [
    .object [("id", .string "open"), ("type", .string "set"), ("target", .string "session"),
      ("on", .string "success"), ("delay", .number (.int 10)),
      ("attributes", .object [("key", .string "open"), ("value", .bool true)])],
    .object [("id", .string "knock"), ("on", .string "success"),
      ("if", .string "session.open != true")],
    .object [("id", .string "enter"), ("on", .string "success"),
      ("if", .string "session.open == true")],
    .object [("id", .string "ring"), ("on", .string "success"), ("enabled", .bool false)],
    .object [("id", .string "climb"), ("on", .string "success"), ("if", .array [])]])]

/-- One opens the door and knocks, although it is open by then, and does not enter. -/
theorem run_gates_door :
    let s := (ofDocument (Host.answering 0 (.ok .null)) door).run [.raise "screen" "success" none]
    let event : Event := ⟨⟨"success"⟩, "screen", none⟩
    let during : List Move := [.elapse 10, .advance (.lane "screen"), .advance (.lane "screen")]
    let t := s.apply (.advance (.lane "screen"))
    ∃ e, s.Reaches "screen" (.deliver event) 0 e
      ∧ s.boundTo 0 (.deliver event) = [1, 2, 3, 4, 5]
      ∧ t.Delivers "screen" during
      ∧ s.runFirings "screen" (.advance (.lane "screen") :: during) = [⟨1, event⟩, ⟨2, event⟩]
      ∧ s.runSkips "screen" (.advance (.lane "screen") :: during)
        = [skipRecord event "enter" .conditionFalse, skipRecord event "ring" .disabled,
          skipRecord event "climb" (.gateError "gate value [] is not a boolean or expression")]
      ∧ ∀ moves, (t.run moves).without
            (s.isRefusal event (s.boundTo 0 (.deliver event) ++ [1, 2]))
          = ((s.takenFor "screen" (.deliver event) 0 e [1, 2]).run moves).without
            (s.isRefusal event (s.boundTo 0 (.deliver event) ++ [1, 2])) := by
  intro s event during t
  obtain ⟨⟨hopen, hidle, hfirst, hfound⟩, hfacts, hbound, hadmitted, hsame, hrefused, hduring,
      hover⟩ :
      (s.closed = false ∧ (s.lane "screen").work = none
          ∧ (s.lane "screen").queue.head? = some (.deliver event)
          ∧ s.tree.find? "screen" = some 0)
        ∧ (s.tree.entity? 0).map (fun e => (e.suppressed, e.enabled)) = some (false, none)
        ∧ s.boundTo 0 (.deliver event) = [1, 2, 3, 4, 5]
        ∧ [1, 2, 3, 4, 5].filter (s.admits event) = [1, 2]
        ∧ [1, 2].filter (s.admits event)
          = (s.boundTo 0 (.deliver event)).filter (s.admits event)
        ∧ [1, 2, 3, 4, 5].filterMap (s.refusal? event)
          = [skipRecord event "enter" .conditionFalse, skipRecord event "ring" .disabled,
            skipRecord event "climb" (.gateError "gate value [] is not a boolean or expression")]
        ∧ t.Delivers "screen" during
        ∧ ((t.run during).lane "screen").work = none := by
    decide +kernel
  obtain ⟨e, he, hof⟩ := Option.map_eq_some_iff.mp hfacts
  obtain ⟨hshown, hgate⟩ : e.suppressed = false ∧ e.enabled = none := by simpa using hof
  have hreaches : s.Reaches "screen" (.deliver event) 0 e :=
    ⟨hopen, hidle, hfirst, hfound, he, hshown, fun _ => by rw [hgate]; rfl⟩
  obtain ⟨-, -, hdelivery, htrace⟩ := run_gates (Host.answering 0 (.ok .null)) door
    [.raise "screen" "success" none] hreaches
  obtain ⟨hfirings, hskips, -⟩ := hdelivery during hduring
  rw [Lane.firingsLeft, hover, Option.toList_none, List.flatMap_nil, List.append_nil, hbound,
    Message.event, hadmitted] at hfirings
  rw [Lane.skipsLeft, hover, Option.toList_none, List.flatMap_nil, List.append_nil, hbound,
    Message.event, hrefused] at hskips
  exact ⟨e, hreaches, hbound, hduring, hfirings, hskips, htrace [1, 2] hsame⟩

end Session

end Componentry

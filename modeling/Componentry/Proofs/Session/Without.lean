import Mathlib.Tactic
import Componentry.Proofs.Session.Move
import Componentry.Proofs.Keyed
/-!
# Without what is skipped

`Session.without` is a session without some of its skipped actions, given by their records: the
steps of deliveries that are going to write such a record are left out, and so are the records that
have been written.  Everything else is there: the tree, the clock, the messages, the repeats, the
loads, and all that the host has been shown and asked.

No move looks at what is missing.  Each stretch of work does the same without it, and so does each
move (`without_apply`), hence sessions that are equal but for what is left out stay so along every
run (`without_run`).
-/

namespace Componentry

/-- Whether a record is about an action that was skipped. -/
def Record.isSkip (record : Record) : Bool :=
  match record.action, record.outcome with
  | some _, .skipped _ => true
  | _, _ => false

/-- Whether a step of a delivery does not skip an action with a record that is left out. -/
def PlannedStep.stays (gone : Record → Bool) (event : Event) : PlannedStep → Bool
  | .run _ => true
  | .skip actionId reason => !gone (skipRecord event actionId reason)

/-- A delivery without the steps whose records are left out. -/
def Delivery.without (gone : Record → Bool) (delivery : Delivery) : Delivery :=
  { delivery with rest := delivery.rest.filter (PlannedStep.stays gone delivery.event) }

/-- A lane without the steps whose records are left out. -/
def Lane.without (gone : Record → Bool) (lane : Lane) : Lane :=
  { lane with work := lane.work.map (Delivery.without gone) }

namespace Session

/-- A session without the skipped actions whose records are left out. -/
def without (gone : Record → Bool) (s : Session) : Session :=
  { s with
    lanes := s.lanes.mapValues (Lane.without gone)
    journal := s.journal.filter fun record => !(record.isSkip && gone record) }

variable (gone : Record → Bool)

/-! ### Small moves -/

lemma without_lane (s : Session) (source : String) :
    (s.without gone).lane source = (s.lane source).without gone := by
  rw [lane, lane, without]
  dsimp only
  rw [Keyed.lookup_mapValues]
  cases s.lanes.lookup source <;> rfl

lemma setLane_without (s : Session) (source : String) (lane : Lane) :
    (s.setLane source lane).without gone = (s.without gone).setLane source (lane.without gone) := by
  rw [setLane, without]
  dsimp only
  rw [Keyed.mapValues_insert]
  rfl

lemma record_without (s : Session) (event : Event) {action : Option String} {outcome : Outcome}
    (h : Record.isSkip ⟨event.source, event.name, action, outcome⟩ = false) :
    (s.record event action outcome).without gone
      = (s.without gone).record event action outcome := by
  simp [record, without, h]

lemma record_skip_without (s : Session) (event : Event) {actionId : String} {reason : SkipReason}
    (h : gone (skipRecord event actionId reason) = true) :
    (s.record event (some actionId) (.skipped reason)).without gone = s.without gone := by
  rw [skipRecord] at h
  simp [record, without, h, Record.isSkip]

lemma record_kept_without (s : Session) (event : Event) {actionId : String} {reason : SkipReason}
    (h : gone (skipRecord event actionId reason) = false) :
    (s.record event (some actionId) (.skipped reason)).without gone
      = (s.without gone).record event (some actionId) (.skipped reason) := by
  rw [skipRecord] at h
  simp [record, without, h]

lemma enqueue_without (s : Session) (source : String) (message : Message) :
    (s.enqueue source message).without gone = (s.without gone).enqueue source message := by
  rw [enqueue, enqueue, without_lane, show (s.without gone).closed = s.closed from rfl]
  split_ifs
  · rfl
  · have hset := s.setLane_without gone source
      { s.lane source with queue := (s.lane source).queue ++ [message] }
    exact congrArg (fun t : Session => { t with pending := s.pending + 1 }) hset

lemma raiseLifecycle_without (s : Session) (index : Nat)
    (events : List (LifecycleEvent × Option Json)) :
    (s.raiseLifecycle index events).without gone
      = (s.without gone).raiseLifecycle index events := by
  rw [raiseLifecycle, raiseLifecycle, show (s.without gone).tree = s.tree from rfl]
  cases s.tree.entity? index with
  | none => rfl
  | some e =>
      dsimp only
      split_ifs
      · rfl
      · induction events generalizing s with
        | nil => rfl
        | cons event rest ih => rw [List.foldl_cons, List.foldl_cons, ih, enqueue_without]

lemma finishWork_without (s : Session) (source : String) :
    (s.finishWork source).without gone = (s.without gone).finishWork source := by
  have hset := s.setLane_without gone source { s.lane source with work := none }
  rw [finishWork, finishWork, without_lane]
  exact congrArg finishOne hset

/-! ### Actions -/

lemma perform_without (s : Session) (effect : Effect) :
    (s.without gone).perform effect
      = ((s.perform effect).1.without gone, (s.perform effect).2) := by
  cases effect with
  | merge place changes animated =>
      cases place with
      | app | session => rfl
      | entity index =>
          simp only [perform, notifyUpdate, show (s.without gone).tree = s.tree from rfl]
          split
          · split_ifs <;> rfl
          · rfl
  | none | load _ | alert _ | redraw _ | call _ => rfl

lemma carryOut_without (s : Session) (verdict : Verdict) :
    (s.without gone).carryOut verdict
      = ((s.carryOut verdict).1.without gone, (s.carryOut verdict).2) := by
  unfold carryOut
  cases verdict.result with
  | error failure => rfl
  | ok effect =>
      have hperform :=
        perform_without gone { s with reports := s.reports ++ verdict.reports } effect
      dsimp only
      rw [show { s.without gone with reports := (s.without gone).reports ++ verdict.reports }
        = without gone { s with reports := s.reports ++ verdict.reports } from rfl, hperform]
      rcases perform { s with reports := s.reports ++ verdict.reports } effect with ⟨t, failure⟩
      cases failure <;> rfl

lemma acceptLoad?_without (s : Session) (provider : Option Nat) :
    (s.acceptLoad? provider).without gone = (s.without gone).acceptLoad? provider := by
  cases provider <;> rfl

/-- An action that runs is not skipped. -/
lemma isSkip_executionRecord (s : Session) (e : Entity) (event : Event) :
    (executionRecord event e.id (s.ending e event).outcome).isSkip = false := by
  rw [ending]
  cases (s.carryOut (s.verdict e event)).2 <;> rfl

lemma execute_without (s : Session) (index : Nat) (event : Event) :
    (s.execute index event).without gone = (s.without gone).execute index event := by
  cases he : s.tree.entity? index with
  | none =>
      rw [execute, execute, show (s.without gone).tree = s.tree from rfl, he]
  | some e =>
      have he' : (s.without gone).tree.entity? index = some e := he
      have hcarry := s.carryOut_without gone (s.verdict e event)
      have hverdict : (s.without gone).verdict e event = s.verdict e event := rfl
      have hending : (s.without gone).ending e event = s.ending e event := by
        rw [ending, hverdict, hcarry, ending]
      rw [execute_eq he, execute_eq he', raiseLifecycle_without, acceptLoad?_without,
        record_without gone _ event (s.isSkip_executionRecord e event), hverdict, hending, hcarry]
      rfl

lemma scheduleRepeat_without (s : Session) (event : Event) (run : PlannedRun) :
    (s.scheduleRepeat event run).without gone = (s.without gone).scheduleRepeat event run := by
  rw [scheduleRepeat, scheduleRepeat]
  split <;> rfl

/-! ### Lanes -/

/-- Going through the steps of a delivery those do not count that are left out. -/
lemma proceed_without (s : Session) (source : String) (event : Event)
    (steps : List PlannedStep) : (s.proceed source event steps).without gone
      = (s.without gone).proceed source event (steps.filter (PlannedStep.stays gone event)) := by
  induction steps generalizing s with
  | nil => exact s.finishWork_without gone source
  | cons step rest ih =>
      cases step with
      | skip actionId reason =>
          cases hgone : gone (skipRecord event actionId reason) with
          | true =>
              rw [List.filter_cons_of_neg (by simp [PlannedStep.stays, hgone]), proceed, ih,
                record_skip_without gone s event hgone]
          | false =>
              rw [List.filter_cons_of_pos (by simp [PlannedStep.stays, hgone]), proceed, proceed,
                ih, record_kept_without gone s event hgone]
      | run next =>
          rw [List.filter_cons_of_pos rfl, proceed, proceed, setLane_without, without_lane]
          rfl

/-- Going through the steps of a repetition those do not count that are left out. -/
lemma refireSteps_without (s : Session) (event : Event) (steps : List PlannedStep) :
    (steps.foldl (fun s step => s.refireStep event step) s).without gone
      = (steps.filter (PlannedStep.stays gone event)).foldl (fun s step => s.refireStep event step)
        (s.without gone) := by
  induction steps generalizing s with
  | nil => rfl
  | cons step rest ih =>
      cases step with
      | skip actionId reason =>
          cases hgone : gone (skipRecord event actionId reason) with
          | true =>
              rw [List.filter_cons_of_neg (by simp [PlannedStep.stays, hgone]), List.foldl_cons, ih,
                refireStep, record_skip_without gone s event hgone]
          | false =>
              rw [List.filter_cons_of_pos (by simp [PlannedStep.stays, hgone]), List.foldl_cons,
                List.foldl_cons, ih, refireStep, refireStep,
                record_kept_without gone s event hgone]
      | run run =>
          rw [List.filter_cons_of_pos rfl, List.foldl_cons, List.foldl_cons, ih, refireStep,
            refireStep, execute_without]

lemma without_without (s : Session) : ((s.without gone).without gone) = s.without gone := by
  have hlane : Lane.without gone ∘ Lane.without gone = Lane.without gone := by
    funext lane
    cases hw : lane.work <;> simp [Lane.without, Delivery.without, hw]
  have hlanes : (s.lanes.mapValues (Lane.without gone)).mapValues (Lane.without gone)
      = s.lanes.mapValues (Lane.without gone) := by
    simp only [Keyed.mapValues, List.map_map]
    exact List.map_congr_left fun entry _ => congrArg (entry.1, ·) (congrFun hlane entry.2)
  simp [without, hlanes]

lemma deliver_without (s : Session) (source : String) (event : Event) :
    (s.deliver source event).without gone
      = ((s.without gone).deliver source event).without gone := by
  rw [deliver, deliver, show (s.without gone).plan event none = s.plan event none from rfl]
  cases s.plan event none with
  | none =>
      dsimp only
      rw [finishWork_without, finishWork_without, without_without]
  | some plan =>
      cases plan with
      | dropped reason =>
          dsimp only
          rw [finishWork_without, record_without _ _ _ rfl, finishWork_without,
            record_without _ _ _ rfl, without_without]
      | steps steps =>
          dsimp only
          rw [proceed_without, record_without _ _ _ rfl, proceed_without,
            record_without _ _ _ rfl, without_without]

lemma refire_without (s : Session) (source : String) (action : Nat) (event : Event) :
    (s.refire source action event).without gone
      = ((s.without gone).refire source action event).without gone := by
  have hplan : (s.without gone).plan event (some action) = s.plan event (some action) := rfl
  rw [refire, refire, hplan]
  split
  · rw [finishWork_without, refireSteps_without, finishWork_without, refireSteps_without,
      without_without]
  · rw [finishWork_without, finishWork_without, without_without]

lemma runNext_without (s : Session) (source : String) (delivery : Delivery) :
    (s.runNext source delivery).without gone
      = ((s.without gone).runNext source (delivery.without gone)).without gone := by
  rw [runNext, runNext, proceed_without, proceed_without, scheduleRepeat_without,
    execute_without, scheduleRepeat_without, execute_without, without_without]
  simp [Delivery.without]

lemma advanceLane_without (s : Session) (source : String) :
    (s.advanceLane source).without gone = ((s.without gone).advanceLane source).without gone := by
  rw [advanceLane, advanceLane, without_lane, Lane.without]
  dsimp only
  rw [show (s.without gone).closed = s.closed from rfl,
    show (s.without gone).clock = s.clock from rfl]
  cases hw : (s.lane source).work with
  | some delivery =>
      dsimp only [Option.map_some]
      rw [show (delivery.without gone).wake = delivery.wake from rfl]
      split_ifs
      · rw [finishWork_without, finishWork_without, without_without]
      · exact s.runNext_without gone source delivery
      · exact (s.without_without gone).symm
  | none =>
      cases hq : (s.lane source).queue with
      | nil => exact (s.without_without gone).symm
      | cons message queue =>
          have htaken : ((s.setLane source { queue }).without gone)
              = (s.without gone).setLane source { queue } := s.setLane_without gone source _
          dsimp only [Option.map_none]
          rw [← htaken]
          split_ifs
          · exact congrArg finishOne (without_without _ _).symm
          · cases message with
            | deliver event => exact deliver_without gone _ source event
            | refire action event => exact refire_without gone _ source action event

/-! ### Loads and repeats -/

lemma beginLoad_without (s : Session) (load : Load) :
    (s.beginLoad load).without gone = (s.without gone).beginLoad load := by
  rw [beginLoad, beginLoad, show (s.without gone).tree = s.tree from rfl]
  cases s.tree.entity? load.provider with
  | none => rfl
  | some e =>
      dsimp only
      cases e.behaviour.dataProvider? with
      | none => rfl
      | some provider =>
          dsimp only
          split_ifs
          · exact congrArg (dropLoad · load.ticket) (record_without gone s (loadEvent e.id) rfl)
          · rfl
          · have hrequest : (s.without gone).loadRequest e provider
                = s.loadRequest e provider := rfl
            rw [hrequest, ask, ask]
            split <;> rfl

lemma completeLoad_without (s : Session) (provider : Nat) (result : LoadResult) :
    (s.completeLoad provider result).without gone
      = (s.without gone).completeLoad provider result := by
  rw [completeLoad, completeLoad, show (s.without gone).tree = s.tree from rfl]
  cases s.tree.entity? provider with
  | none => rfl
  | some e => exact raiseLifecycle_without _ _ _ _

lemma advanceLoad_without (s : Session) (ticket : Nat) :
    (s.advanceLoad ticket).without gone = (s.without gone).advanceLoad ticket := by
  rw [advanceLoad, advanceLoad, show (s.without gone).loads = s.loads from rfl,
    show (s.without gone).clock = s.clock from rfl]
  cases s.loads.find? fun load => load.ticket = ticket with
  | none => rfl
  | some load =>
      cases hanswer : load.answer with
      | none =>
          dsimp only
          rw [hanswer]
          exact s.beginLoad_without gone load
      | some answer =>
          dsimp only
          rw [hanswer]
          dsimp only
          split_ifs
          · rw [endLoad, endLoad, show (s.without gone).closed = s.closed from rfl]
            split_ifs
            · rfl
            · exact congrArg (dropLoad · load.ticket) (s.completeLoad_without gone _ _)
          · rfl

lemma advanceTimer_without (s : Session) (generation : Nat) :
    (s.advanceTimer generation).without gone = (s.without gone).advanceTimer generation := by
  rw [advanceTimer, advanceTimer, show (s.without gone).ticker = s.ticker from rfl,
    show (s.without gone).clock = s.clock from rfl]
  cases s.ticker.timer? generation with
  | none => rfl
  | some timer =>
      dsimp only
      split_ifs
      · have hqueued := s.enqueue_without gone timer.label.event.source
          (.refire timer.label.action timer.label.event)
        exact congrArg (fun t : Session => { t with ticker := s.ticker.tick timer !s.closed })
          hqueued
      · rfl

/-! ### Moves -/

lemma dispatch_without (s : Session) (event : Event) :
    (s.without gone).dispatch event = (s.dispatch event).map (without gone) := by
  rw [dispatch, dispatch, show (s.without gone).tree = s.tree from rfl,
    show (s.without gone).closed = s.closed from rfl]
  split_ifs
  · rfl
  · rfl
  · rfl
  · exact congrArg Except.ok (s.enqueue_without gone _ _).symm

lemma raise_without (s : Session) (source name : String) (payload : Option Json) :
    (s.without gone).raise source name payload
      = (s.raise source name payload).map (without gone) := by
  rw [raise, raise]
  cases EventName.ofText? name with
  | none => rfl
  | some name => exact s.dispatch_without gone _

lemma complete_without (s : Session) (id : String) (outcome : LifecycleEvent)
    (payload : Option Json) : (s.without gone).complete id outcome payload
      = (s.complete id outcome payload).map (without gone) := by
  rw [complete, complete, show (s.without gone).addressed id = s.addressed id from rfl]
  cases s.addressed id with
  | error refusal => rfl
  | ok found =>
      dsimp only
      cases found.2.state.complete? outcome with
      | error transition => rfl
      | ok state =>
          exact congrArg Except.ok (raiseLifecycle_without gone (s.setState found.1 state) _ _).symm

lemma load_without (s : Session) (id : String) :
    (s.without gone).load id = (s.load id).map (without gone) := by
  rw [load, load, show (s.without gone).addressed id = s.addressed id from rfl,
    show (s.without gone).closed = s.closed from rfl]
  split_ifs
  · rfl
  · cases s.addressed id with
    | error refusal => rfl
    | ok found =>
        dsimp only
        split_ifs <;> rfl

lemma begin_without (s : Session) (id : String) :
    (s.without gone).begin id = (s.begin id).map (without gone) := by
  rw [begin, begin, show (s.without gone).addressed id = s.addressed id from rfl]
  cases s.addressed id with
  | error refusal => rfl
  | ok found =>
      dsimp only
      cases found.2.state.begin? <;> rfl

lemma accepted_without (s : Session) (result : Except DispatchError Session) :
    (s.accepted result).without gone = (s.without gone).accepted (result.map (without gone)) := by
  cases result <;> rfl

/-- **No move looks at what is left out.** -/
theorem without_apply (s : Session) (m : Move) :
    (s.apply m).without gone = ((s.without gone).apply m).without gone := by
  have haccepted : ∀ result : Except DispatchError Session,
      (s.accepted result).without gone
        = ((s.without gone).accepted (result.map (without gone))).without gone := by
    intro result
    rw [← accepted_without, without_without]
  cases m with
  | dispatch event =>
      rw [apply, apply, dispatch_without]
      exact haccepted _
  | raise source name payload =>
      rw [apply, apply, raise_without]
      exact haccepted _
  | load id =>
      rw [apply, apply, load_without]
      exact haccepted _
  | begin id =>
      rw [apply, apply, begin_without]
      exact haccepted _
  | complete id outcome payload =>
      rw [apply, apply, complete_without]
      exact haccepted _
  | teardown =>
      have hteardown : s.teardown.without gone = (s.without gone).teardown := by
        rw [teardown, teardown, show (s.without gone).closed = s.closed from rfl]
        split_ifs <;> rfl
      rw [apply, apply, ← hteardown, without_without]
  | elapse moment => exact (without_without gone (s.elapse moment)).symm
  | advance task =>
      cases task with
      | lane source => exact s.advanceLane_without gone source
      | load ticket =>
          rw [apply, apply, advance, advance, ← advanceLoad_without, without_without]
      | timer generation =>
          rw [apply, apply, advance, advance, ← advanceTimer_without, without_without]

/-- Sessions that are equal but for what is left out stay so along every run. -/
theorem without_run {s t : Session} (h : s.without gone = t.without gone) (moves : List Move) :
    (s.run moves).without gone = (t.run moves).without gone := by
  induction moves generalizing s t with
  | nil => exact h
  | cons m moves ih =>
      refine ih ?_
      rw [without_apply, h, ← without_apply]

end Session

end Componentry

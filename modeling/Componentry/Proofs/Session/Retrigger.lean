import Mathlib.Tactic
import Componentry.Proofs.Session.Repeat
/-!
# Bindings that are triggered again

A binding is triggered when a delivery runs its action (`Session.resumed`), and from then on its repeat
runs the action again on the same event.  `Session.firings` are the executions that a move makes, of
either kind.

A binding that is triggered again gets a new repeat in place of the old one, so from then on every
repetition that comes to the lane is about the new event (`Session.Latest`).  Repetitions that wait on
the lane at that moment stay there, though.  `Session.run_retriggers` says what runs after a trigger:
the event of the trigger, and what was left on the lane, each once and in order.
-/

namespace Componentry

/-- A source, the name of an event, and an action that runs on it. -/
structure Trigger where
  source : String
  name : EventName
  action : Nat
  deriving DecidableEq

/-- The trigger of an action that runs on an event. -/
def Event.trigger (event : Event) (action : Nat) : Trigger := ⟨event.source, event.name, action⟩

/-- The trigger of the next action of a delivery. -/
def Delivery.trigger (delivery : Delivery) : Trigger :=
  delivery.event.trigger delivery.next.action

/-- The trigger of what a repeat runs. -/
def Refire.trigger (label : Refire) : Trigger := label.event.trigger label.action

/-- An action that runs, and the event that it runs on. -/
structure Firing where
  action : Nat
  event : Event
  deriving DecidableEq

/-- The trigger of an action that runs. -/
def Firing.trigger (firing : Firing) : Trigger := firing.event.trigger firing.action

/-- The action of a step that runs one. -/
def PlannedStep.action? : PlannedStep → Option Nat
  | .run next => some next.action
  | .skip .. => none

namespace Session

variable {s : Session}

/-! ### What runs -/

/-- What the repetition of an action runs: the action, unless it is skipped or its source drops the
event. -/
def refireFirings (s : Session) (action : Nat) (event : Event) : List Firing :=
  match s.plan event (some action) with
  | some (.steps steps) => (steps.filterMap PlannedStep.action?).map fun action => ⟨action, event⟩
  | _ => []

/-- The executions that a move makes, in order. -/
def firings (s : Session) : Move → List Firing
  | .advance (.lane source) =>
    match s.closed, (s.lane source).work, (s.lane source).queue with
    | true, _, _ => []
    | false, some delivery, _ =>
      if delivery.wake ≤ s.clock then [⟨delivery.next.action, delivery.event⟩] else []
    | false, none, .refire action event :: _ => (s.opened source).refireFirings action event
    | false, none, _ => []
  | _ => []

lemma mem_refireFirings {action : Nat} {event : Event} {firing : Firing}
    (h : firing ∈ s.refireFirings action event) : firing = ⟨action, event⟩ := by
  rw [refireFirings] at h
  split at h
  · rename_i steps hplan
    obtain ⟨index, hindex, rfl⟩ := List.mem_map.mp h
    obtain ⟨step, hstep, haction⟩ := List.mem_filterMap.mp hindex
    cases step with
    | run run =>
        cases haction
        rw [(plan_serves hplan hstep).2.2 action rfl]
    | skip actionId reason => cases haction
  · cases h

/-- An action runs because a delivery goes on, or because a lane takes its repetition. -/
lemma firings_cases {m : Move} {firing : Firing} (h : firing ∈ s.firings m) :
    (∃ delivery, s.resumed m = some delivery
        ∧ firing = ⟨delivery.next.action, delivery.event⟩)
      ∨ ∃ source queue, m = .advance (.lane source)
          ∧ (s.lane source).queue = .refire firing.action firing.event :: queue := by
  unfold firings at h
  split at h
  · rename_i source
    split at h
    · cases h
    · rename_i delivery hopen hwork
      split_ifs at h with hwake
      · refine .inl ⟨delivery, resumed_eq_some_iff.mpr ⟨source, rfl, hopen, hwork, hwake⟩, ?_⟩
        exact List.mem_singleton.mp h
      · cases h
    · rename_i action event queue hopen hwork hqueue
      rw [mem_refireFirings h]
      exact .inr ⟨source, queue, rfl, hqueue⟩
    · cases h
  · cases h

lemma refireEmissions_indices (hc : s.closed = false) {event : Event} {steps : List PlannedStep}
    (h : ∀ run, .run run ∈ steps → run.action < s.tree.size) :
    (s.refireEmissions event steps).completions.map Completion.index
      = steps.filterMap PlannedStep.action? := by
  induction steps generalizing s with
  | nil => rfl
  | cons step rest ih =>
      have hstep := emits_refireStep hc event step
      have hrest := ih (hstep.closed.trans hc) fun run hrun => by
        rw [hstep.tree.size_eq]
        exact h run (List.mem_cons_of_mem _ hrun)
      rw [refireEmissions, Emission.append, List.map_append, hrest]
      cases step with
      | run run =>
          obtain ⟨e, he⟩ := Tree.lt_size_iff.mp (h run List.mem_cons_self)
          simp [refireEmission, execution, he, PlannedStep.action?]
      | skip actionId reason =>
          rw [List.filterMap_cons_none rfl]
          rfl

lemma refireTurn_indices (hc : s.closed = false) (action : Nat) (event : Event) :
    (s.refireTurn action event).completions.map Completion.index
      = (s.refireFirings action event).map Firing.action := by
  rw [refireTurn, refireFirings]
  cases hplan : s.plan event (some action) with
  | none => rfl
  | some plan =>
      cases plan with
      | dropped reason => rfl
      | steps steps =>
          show (Emission.completions _).map _ = _
          rw [refireEmissions_indices hc fun run hrun => (plan_serves hplan hrun).1.lt_size]
          simp [Function.comp_def]

/-- **What runs is what ends**: the executions of a move of a lane are the ones that it completes. -/
theorem Served.firings_completions (h : s.Served) (hc : s.closed = false) (source : String) :
    (s.completions (.advance (.lane source))).map Completion.index
      = (s.firings (.advance (.lane source))).map Firing.action := by
  rw [completions, firings, turn, hc]
  cases hw : (s.lane source).work with
  | some delivery =>
      have hserves := h.work source delivery hw delivery.next List.mem_cons_self
      obtain ⟨e, he⟩ := Tree.lt_size_iff.mp hserves.lt_size
      by_cases hwake : delivery.wake ≤ s.clock
      · simp [hwake, nextTurn, Emission.append, execution, he]
      · simp [hwake]
  | none =>
      cases hq : (s.lane source).queue with
      | nil => rfl
      | cons message queue =>
          cases message with
          | deliver event =>
              simp only [Option.map_some, Option.getD_some, deliverTurn]
              split <;> rfl
          | refire action event =>
              have hopen : (s.opened source).closed = false := by rw [opened_closed, hc]
              exact refireTurn_indices hopen action event

/-! ### Repeats after a trigger -/

/-- The deliveries that go on along a run, in order. -/
def resumptions (s : Session) (moves : List Move) : List Delivery :=
  s.along (fun s m => (s.resumed m).toList) moves

/-- The messages that are taken off a lane along a run, in order. -/
def takings (s : Session) (source : String) (moves : List Move) : List Message :=
  s.along (fun s m => s.taken source m) moves

/-- All repeats of a trigger are about one event. -/
def Latest (s : Session) (trigger : Trigger) (event : Event) : Prop :=
  ∀ timer ∈ s.ticker.timers, timer.label.trigger = trigger → timer.label.event = event

/-- **A trigger ends the repeat of the one before it**, which has the id of the one that starts. -/
lemma ends_of_resumed {host : Host} {document : Document} {before : List Move} {m : Move}
    {delivery : Delivery}
    (h : ((ofDocument host document).run before).resumed m = some delivery) {timer : Timer Refire}
    (ht : timer ∈ ((ofDocument host document).run before).ticker.timers)
    (htrigger : timer.label.trigger = delivery.trigger) :
    ((ofDocument host document).run before).Ends timer [m] := by
  obtain ⟨source, -, -, hwork, -⟩ := resumed_eq_some_iff.mp h
  obtain ⟨run, hserves, hid, hevery, haction, hname⟩ := labels_run host document before timer ht
  obtain ⟨hserves', hid'⟩ := ofPlans_named.run host document before source delivery hwork
    delivery.next List.mem_cons_self
  have hsame := ((ofDocument host document).sameStructure_run before).symm
  obtain ⟨hsource, hevent, hindex⟩ : timer.label.event.source = delivery.event.source
      ∧ timer.label.event.name = delivery.event.name
      ∧ timer.label.action = delivery.next.action := by
    simpa [Refire.trigger, Delivery.trigger, Event.trigger] using htrigger
  have haction' : run.action = delivery.next.action := haction.trans hindex
  have hinterval : delivery.next.every? = run.every? := by
    rw [← (hsame.serves hserves').repeatInterval?_eq, ← hserves.repeatInterval?_eq, hsource,
      haction']
  have hactionId : delivery.next.actionId = run.actionId := by
    rw [haction', hsame.idAt?_eq, hid', Option.some.injEq] at hid
    exact hid
  obtain ⟨interval, hrepeats⟩ := Option.isSome_iff_exists.mp hevery
  refine ends_singleton.mpr (.inr (.inl ⟨_, begun?_eq_some_iff.mpr
    ⟨delivery, interval, h, hinterval.trans hrepeats, rfl⟩, ?_⟩))
  show repeatId delivery.event delivery.next.actionId = timer.id
  rw [hname, repeatId, repeatId, hactionId, hsource, hevent]

/-- After a trigger the repeats are about its event. -/
lemma latest_of_resumed {host : Host} {document : Document} {before : List Move} {m : Move}
    {delivery : Delivery}
    (h : ((ofDocument host document).run before).resumed m = some delivery) :
    (((ofDocument host document).run before).apply m).Latest delivery.trigger delivery.event := by
  obtain ⟨source, -, hopen, -⟩ := resumed_eq_some_iff.mp h
  intro other hother htrigger
  obtain ⟨timer, ht, hends, rfl⟩ | ⟨hbegun, -⟩ :=
    ((timed_run host document before).mem_apply hopen).mp hother
  · exact absurd (ends_of_resumed h ht htrigger) hends
  · obtain ⟨delivery', interval, hresumed, -, rfl⟩ := begun?_eq_some_iff.mp hbegun
    rw [h, Option.some.injEq] at hresumed
    rw [hresumed]
    rfl

/-- Without a further trigger the repeats stay about the event. -/
lemma Latest.apply {trigger : Trigger} {event : Event} (h : s.Latest trigger event) (ht : s.Timed)
    {m : Move} (hfree : ∀ delivery, s.resumed m = some delivery → delivery.trigger ≠ trigger) :
    (s.apply m).Latest trigger event := by
  intro other hother htrigger
  cases hc : s.closed with
  | true =>
      rw [(rests_apply hc (ht.quiet hc).2 m).ticker] at hother
      exact h other hother htrigger
  | false =>
      obtain ⟨timer, hmem, -, rfl⟩ | ⟨hbegun, -⟩ := (ht.mem_apply hc).mp hother
      · exact h timer hmem htrigger
      · obtain ⟨delivery, interval, hresumed, -, rfl⟩ := begun?_eq_some_iff.mp hbegun
        exact absurd htrigger (hfree delivery hresumed)

/-- The repetitions that come to a lane are those of the timers. -/
lemma Latest.arrived {trigger : Trigger} {event : Event} (h : s.Latest trigger event) {m : Move}
    {source : String} {action : Nat} {other : Event}
    (hmem : .refire action other ∈ s.arrived source m) (htrigger : other.trigger action = trigger) :
    other = event := by
  rw [arrived_eq, mem_postsTo] at hmem
  obtain ⟨timer, ht, hlabel⟩ := exists_timer_of_posted hmem
  have hevent := h timer ht
  rw [hlabel] at hevent
  exact hevent htrigger

/-- **Along a run without a further trigger** the repeats stay about the event, and so are all
repetitions that come to a lane. -/
lemma Latest.run {trigger : Trigger} {event : Event} (h : s.Latest trigger event) (ht : s.Timed)
    {moves : List Move} (hfree : ∀ delivery ∈ s.resumptions moves, delivery.trigger ≠ trigger) :
    (s.run moves).Latest trigger event ∧ ∀ source action other,
      .refire action other ∈ s.arrivals source moves → other.trigger action = trigger →
        other = event := by
  induction moves generalizing s with
  | nil => exact ⟨h, fun _ _ _ hmem => absurd hmem List.not_mem_nil⟩
  | cons m moves ih =>
      rw [resumptions, along_cons, List.forall_mem_append] at hfree
      obtain ⟨hfirst, hrest⟩ := hfree
      have hlatest := h.apply ht fun delivery hresumed =>
        hfirst delivery (Option.mem_toList.mpr hresumed)
      obtain ⟨hlast, harrivals⟩ := ih hlatest (ht.apply m) hrest
      refine ⟨hlast, fun source action other hmem htrigger => ?_⟩
      obtain hmem | hmem := List.mem_append.mp hmem
      · exact h.arrived hmem htrigger
      · exact harrivals source action other hmem htrigger

/-- A lane is first in, first out: what it takes along a run and keeps is what it had and what has
arrived. -/
lemma queue_append_arrivals (s : Session) (source : String) (moves : List Move) :
    (s.lane source).queue ++ s.arrivals source moves
      = s.takings source moves ++ ((s.run moves).lane source).queue := by
  induction moves generalizing s with
  | nil => simp [arrivals, takings]
  | cons m moves ih =>
      have htakings : s.takings source (m :: moves)
          = s.taken source m ++ (s.apply m).takings source moves := rfl
      rw [arrivals, ← List.append_assoc, queue_append_arrived, List.append_assoc, ih, htakings,
        List.append_assoc, run_cons]

/-- **What runs after a trigger.**  Once a delivery has run the action of a trigger, and until one does
so again, all repeats of the trigger are about the event of that delivery.  What runs is the next
delivery that triggers it, the action once more on the event of the last one, or a repetition that
was left on the lane: the messages that stood there are taken in order, each once, before all that
comes later. -/
theorem run_retriggers (host : Host) (document : Document) (before : List Move) {m : Move}
    {delivery : Delivery}
    (hrun : ((ofDocument host document).run before).resumed m = some delivery) :
    let t := ((ofDocument host document).run before).apply m
    let source := delivery.event.source
    ∀ after, (∀ other ∈ t.resumptions after, other.trigger ≠ delivery.trigger) →
      (t.run after).Latest delivery.trigger delivery.event
        ∧ ∀ m' firing, firing ∈ (t.run after).firings m' → firing.trigger = delivery.trigger →
          (∃ other, (t.run after).resumed m' = some other ∧ other.trigger = delivery.trigger
              ∧ firing.event = other.event)
            ∨ firing.event = delivery.event
            ∨ (t.lane source).queue[(t.takings source after).length]?
                = some (.refire firing.action firing.event) := by
  intro t source after hfree
  have hlatest : t.Latest delivery.trigger delivery.event := latest_of_resumed hrun
  have htimed : t.Timed := (timed_run host document before).apply m
  obtain ⟨hlast, harrivals⟩ := hlatest.run htimed hfree
  refine ⟨hlast, fun m' firing hfiring htrigger => ?_⟩
  obtain ⟨other, hresumed, rfl⟩ | ⟨mover, queue, rfl, hqueue⟩ := firings_cases hfiring
  · exact .inl ⟨other, hresumed, htrigger, rfl⟩
  · have hsourced : (t.run after).Sourced := by
      have hall := sourced_run (sourced_start host _) (sound_ofDocument host document)
        (before ++ m :: after)
      rwa [run_append] at hall
    obtain rfl : mover = source := by
      have hmover := hsourced.queue mover _ (by rw [hqueue]; exact List.mem_cons_self)
      exact hmover.symm.trans (congrArg Trigger.source htrigger)
    have hfifo := t.queue_append_arrivals source after
    have hnext : ((t.lane source).queue ++ t.arrivals source after)[(t.takings source after).length]?
        = some (.refire firing.action firing.event) := by
      rw [hfifo, hqueue]
      simp
    by_cases hleft : (t.takings source after).length < (t.lane source).queue.length
    · rw [List.getElem?_append_left hleft] at hnext
      exact .inr (.inr hnext)
    · rw [List.getElem?_append_right (Nat.not_lt.mp hleft)] at hnext
      exact .inr (.inl (harrivals source _ _ (List.mem_of_getElem? hnext) htrigger))

/-- A provider with an action that waits before it runs, and repeats. -/
def poll : Document where
  members := [("id", .string "screen"), ("dataProviders", .array [.object [("id", .string "feed"),
    ("type", .string "json"), ("actions", .array [.object [("id", .string "poll"),
      ("on", .string "success"), ("delay", .number (.int 25)),
      ("repeatDelay", .number (.int 10))]])]])]

/-- What the provider of `poll` raises. -/
def told (count : Int) : Event := ⟨⟨"success"⟩, "feed", some (.number (.int count))⟩

/-- The repeat of the first event ticks while the action waits for the second one. -/
def toldTwice : List Move :=
  [.dispatch (told 1), .advance (.lane "feed"), .elapse 25, .advance (.lane "feed"),
    .dispatch (told 2), .advance (.lane "feed"), .elapse 35, .advance (.timer 0), .elapse 50]

/-- The action runs on the first event once more after it has run on the second one. -/
theorem run_retriggers_poll :
    let s := (ofDocument (Host.answering 0 (.ok .null)) poll).run toldTwice
    let t := s.apply (.advance (.lane "feed"))
    s.firings (.advance (.lane "feed")) = [⟨2, told 2⟩]
      ∧ t.Latest ⟨"feed", ⟨"success"⟩, 2⟩ (told 2)
      ∧ t.firings (.advance (.lane "feed")) = [⟨2, told 1⟩]
      ∧ (t.lane "feed").queue[0]? = some (.refire 2 (told 1)) := by
  obtain ⟨hrun, hfirst, hsecond, hwork⟩ :
      ((ofDocument (Host.answering 0 (.ok .null)) poll).run toldTwice).resumed
          (.advance (.lane "feed"))
        = some ⟨told 2, ⟨2, "poll", some 25000, some 10000⟩, [], 50⟩
      ∧ ((ofDocument (Host.answering 0 (.ok .null)) poll).run toldTwice).firings
          (.advance (.lane "feed")) = [⟨2, told 2⟩]
      ∧ (((ofDocument (Host.answering 0 (.ok .null)) poll).run toldTwice).apply
          (.advance (.lane "feed"))).firings (.advance (.lane "feed")) = [⟨2, told 1⟩]
      ∧ (((ofDocument (Host.answering 0 (.ok .null)) poll).run toldTwice).apply
          (.advance (.lane "feed"))).resumed (.advance (.lane "feed")) = none := by
    decide +kernel
  obtain ⟨hlatest, hruns⟩ := run_retriggers _ poll toldTwice hrun [] (by simp [resumptions])
  rw [run_nil] at hlatest hruns
  refine ⟨hfirst, hlatest, hsecond, ?_⟩
  have hstale := hruns (.advance (.lane "feed")) ⟨2, told 1⟩ (by
    rw [hsecond]
    exact List.mem_cons_self) rfl
  obtain ⟨other, hresumed, -⟩ | hevent | hleft := hstale
  · rw [hwork] at hresumed
    cases hresumed
  · simp [told] at hevent
  · exact hleft

end Session

end Componentry

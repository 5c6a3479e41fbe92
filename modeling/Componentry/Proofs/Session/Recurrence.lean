import Mathlib.Tactic
import Componentry.Proofs.Session.Clock
import Componentry.Proofs.Session.Gates
/-!
# How often a binding repeats

A repetition is put on the lane of its source when a timer of the binding ticks
(`Session.requeued`).  There is at most one timer of a binding at a time
(`Session.eq_of_trigger`), and what holds of it holds of the repetitions: it has the interval that
the binding declares, raised to the least one that is allowed, and it has at most as many ticks left
as are allowed (`Session.Times`).

Every repetition uses up one of the ticks that are left (`Session.requeued_apply`), and after every
execution by a delivery and every repetition the timer rests for its interval
(`Session.RestsUntil`).  `Session.run_recurs` puts this together with what a repetition runs: the
action, if its source is shown and enabled and its gates are open at that moment.
-/

namespace Componentry

/-- The trigger of the action that a message repeats, if it repeats one. -/
def Message.repeated? : Message → Option Trigger
  | .deliver _ => none
  | .refire action event => some (event.trigger action)

namespace Timer

variable {α : Type}

/-- Ticks do not bring a timer forward. -/
lemma wake_le_wake_after (timer : Timer α) (ticks : Nat) : timer.wake ≤ (timer.after ticks).wake := by
  simp only [wake, after, roundUp]
  omega

/-- From one tick to the next there is an interval, rounded down. -/
lemma wake_add_le_wake_next (timer : Timer α) :
    timer.wake + timer.interval / 1000 ≤ timer.next.wake := by
  simp only [wake, next, roundUp]
  omega

/-- A timer ticks for the first time after its initial delay. -/
lemma le_wake_started (ticker : Ticker α) (now : Nat) (id : String) (label : α)
    (initial interval limit : Nat) :
    now + initial / 1000 ≤ (ticker.started now id label initial interval limit).wake := by
  simp only [wake, Ticker.started, roundUp]
  omega

end Timer

/-- Two timers of one trigger have the same id. -/
lemma Tree.Labels.id_eq {tree : Tree} {timer other : Timer Refire} (h : tree.Labels timer)
    (hother : tree.Labels other) (htrigger : timer.label.trigger = other.label.trigger) :
    timer.id = other.id := by
  obtain ⟨run, -, hid, -, haction, hname⟩ := h
  obtain ⟨run', -, hid', -, haction', hname'⟩ := hother
  obtain ⟨hsource, hevent, hindex⟩ : timer.label.event.source = other.label.event.source
      ∧ timer.label.event.name = other.label.event.name
      ∧ timer.label.action = other.label.action := by
    simpa [Refire.trigger, Event.trigger] using htrigger
  have hactionId : run.actionId = run'.actionId := by
    rw [haction, hindex, ← haction', hid', Option.some.injEq] at hid
    exact hid.symm
  rw [hname, hname', Session.repeatId, Session.repeatId, hsource, hevent, hactionId]

namespace Session

variable {s : Session} {host : Host} {document : Document} {before : List Move} {m : Move}
  {trigger : Trigger}

/-- The repetitions of a trigger that a move puts on the lane of its source. -/
def requeued (s : Session) (trigger : Trigger) (m : Move) : List Message :=
  (s.arrived trigger.source m).filter fun message => message.repeated? = some trigger

/-- The repetitions of a trigger that are put on the lane of its source along a run, in order. -/
def requeuings (s : Session) (trigger : Trigger) (moves : List Move) : List Message :=
  s.along (fun s m => s.requeued trigger m) moves

/-- The timer of a binding that repeats: it ticks at the interval that the binding declares, or at the
least one that is allowed, and has at most as many ticks left as are allowed. -/
structure Times (tree : Tree) (config : DispatchConfig) (timer : Timer Refire) : Prop where
  interval : ∃ declared,
    tree.repeatInterval? timer.label.event.source timer.label.action = some declared
      ∧ timer.interval = config.clampRepeat declared
  remaining : timer.remaining ≤ config.maxRepeats

/-! ### The timer of a binding -/

lemma times_of_begun {timer : Timer Refire}
    (h : ((ofDocument host document).run before).begun? m = some timer) :
    Times (ofDocument host document).tree host.dispatch timer := by
  obtain ⟨delivery, interval, hresumed, hevery, rfl⟩ := begun?_eq_some_iff.mp h
  obtain ⟨source, -, -, hwork, -⟩ := resumed_eq_some_iff.mp hresumed
  have hserves := ((ofDocument host document).sameStructure_run before).symm.serves
    (ofPlans_serves.run host document before source delivery hwork _ List.mem_cons_self)
  have hhost : ((ofDocument host document).run before).host = host := host_run _ before
  refine ⟨⟨interval, hserves.repeatInterval?_eq.trans hevery, ?_⟩, ?_⟩
  · rw [repeatTimer, hhost]
    rfl
  · rw [repeatTimer, hhost]
    exact le_rfl

lemma times_run (host : Host) (document : Document) (moves : List Move) :
    ∀ timer ∈ ((ofDocument host document).run moves).ticker.timers,
      Times (ofDocument host document).tree host.dispatch timer :=
  forall_timers_run times_of_begun
    (fun _ ticks h => ⟨h.interval, (Nat.sub_le _ ticks).trans h.remaining⟩) moves

/-- **A binding has at most one timer.** -/
lemma eq_of_trigger {timer other : Timer Refire}
    (ht : timer ∈ ((ofDocument host document).run before).ticker.timers)
    (ho : other ∈ ((ofDocument host document).run before).ticker.timers)
    (htrigger : timer.label.trigger = other.label.trigger) : timer = other :=
  (timed_run host document before).sound.eq_of_id ht ho
    ((labels_run host document before timer ht).id_eq (labels_run host document before other ho)
      htrigger)

/-- A timer that a move leaves was there before, with the ticks of the move, or it has been started
for the delivery that the move goes on with. -/
lemma timer_cases (ht : s.Timed) {other : Timer Refire} (h : other ∈ (s.apply m).ticker.timers) :
    (∃ timer ∈ s.ticker.timers, ¬ s.Ends timer [m]
        ∧ timer.after (s.ticks timer.generation [m]) = other)
      ∨ ∃ delivery, s.resumed m = some delivery ∧ s.begun? m = some other
        ∧ other.label.trigger = delivery.trigger ∧ s.clock + other.interval / 1000 ≤ other.wake := by
  cases hc : s.closed with
  | true =>
      rw [(rests_apply hc (ht.quiet hc).2 m).ticker, (ht.quiet hc).2] at h
      cases h
  | false =>
      obtain hold | ⟨hbegun, -⟩ := (ht.mem_apply hc).mp h
      · exact .inl hold
      · obtain ⟨delivery, interval, hresumed, -, rfl⟩ := begun?_eq_some_iff.mp hbegun
        exact .inr ⟨delivery, hresumed, hbegun, rfl, Timer.le_wake_started _ _ _ _ _ _ _⟩

/-! ### What is put on the lane -/

/-- A repetition is put on the lane because a timer of the trigger ticks. -/
lemma ticked_of_requeued (h : s.requeued trigger m ≠ []) :
    ∃ timer, s.ticked m = some timer ∧ timer.label.trigger = trigger := by
  obtain ⟨message, hmem⟩ := List.exists_mem_of_ne_nil _ h
  obtain ⟨harrived, hrepeated⟩ := List.mem_filter.mp hmem
  rw [arrived_eq, mem_postsTo] at harrived
  cases message with
  | deliver event => simp [Message.repeated?] at hrepeated
  | refire action event =>
      obtain ⟨timer, hticked, hlabel⟩ := ticked_of_posted harrived
      have htrigger : event.trigger action = trigger := by
        simpa [Message.repeated?] using hrepeated
      exact ⟨timer, hticked, by rw [hlabel, ← htrigger]; rfl⟩

/-- A move puts at most one repetition on a lane. -/
lemma length_requeued_le_one (s : Session) (trigger : Trigger) (m : Move) :
    (s.requeued trigger m).length ≤ 1 := by
  by_cases h : s.requeued trigger m = []
  · simp [h]
  · obtain ⟨timer, hticked, -⟩ := ticked_of_requeued h
    obtain ⟨generation, rfl, -⟩ := ticked_eq_some_iff.mp hticked
    have hposted : (s.posted (.advance (.timer generation))).length ≤ 1 := by
      rw [posted]
      split_ifs
      · exact Nat.zero_le 1
      · show (s.refired generation).length ≤ 1
        rw [refired]
        split
        · exact Nat.zero_le 1
        · split_ifs <;> simp
    rw [requeued, arrived_eq, postsTo]
    refine (List.length_filter_le _ _).trans (le_trans ?_ hposted)
    rw [List.length_map]
    exact List.length_filter_le _ _

/-! ### How many -/

/-- **Every repetition uses up one of the ticks that are left.** -/
lemma requeued_apply {left : Nat}
    (h : ∀ timer ∈ ((ofDocument host document).run before).ticker.timers,
      timer.label.trigger = trigger → timer.remaining ≤ left)
    (hfree : ∀ delivery, ((ofDocument host document).run before).resumed m = some delivery →
      delivery.trigger ≠ trigger) :
    (((ofDocument host document).run before).requeued trigger m).length ≤ left
      ∧ ∀ timer ∈ (((ofDocument host document).run before).apply m).ticker.timers,
        timer.label.trigger = trigger → timer.remaining
          ≤ left - (((ofDocument host document).run before).requeued trigger m).length := by
  have htimed := timed_run host document before
  by_cases hnone : ((ofDocument host document).run before).requeued trigger m = []
  · rw [hnone]
    refine ⟨Nat.zero_le _, fun other hother htrigger => ?_⟩
    obtain ⟨timer, ht, -, rfl⟩ | ⟨delivery, hresumed, -, hlabel, -⟩ := timer_cases htimed hother
    · exact (Nat.sub_le _ _).trans (h timer ht htrigger)
    · exact absurd (hlabel.symm.trans htrigger) (hfree delivery hresumed)
  · -- The timer that ticks is the only one of the trigger.
    obtain ⟨ticking, hticked, hof⟩ := ticked_of_requeued hnone
    have hmem := mem_of_ticked hticked
    have hleft := h ticking hmem hof
    have hpos := htimed.left ticking hmem
    have hone := length_requeued_le_one ((ofDocument host document).run before) trigger m
    refine ⟨by omega, fun other hother htrigger => ?_⟩
    obtain ⟨timer, ht, -, rfl⟩ | ⟨delivery, hresumed, -⟩ := timer_cases htimed hother
    · obtain rfl : timer = ticking := eq_of_trigger ht hmem (htrigger.trans hof.symm)
      rw [ticks_of_some hticked, if_pos rfl]
      simp only [Timer.after]
      omega
    · obtain ⟨generation, rfl, -⟩ := ticked_eq_some_iff.mp hticked
      cases hresumed

/-- **A trigger is repeated at most as often as its timer has ticks left**, until a delivery executes
it again. -/
lemma length_requeuings_le {left : Nat} {after : List Move}
    (h : ∀ timer ∈ ((ofDocument host document).run before).ticker.timers,
      timer.label.trigger = trigger → timer.remaining ≤ left)
    (hfree : ∀ delivery ∈ ((ofDocument host document).run before).resumptions after,
      delivery.trigger ≠ trigger) :
    (((ofDocument host document).run before).requeuings trigger after).length ≤ left := by
  induction after generalizing before left with
  | nil => exact Nat.zero_le _
  | cons m after ih =>
      rw [resumptions, along_cons, List.forall_mem_append] at hfree
      obtain ⟨hfirst, hrest⟩ := hfree
      obtain ⟨hle, hlater⟩ := requeued_apply h fun delivery hresumed =>
        hfirst delivery (Option.mem_toList.mpr hresumed)
      rw [← run_concat] at hlater hrest
      have hlast := ih hlater hrest
      rw [requeuings, along_cons, List.length_append, ← run_concat, ← requeuings]
      omega

/-! ### How far apart -/

/-- No timer of a trigger ticks before a moment. -/
def RestsUntil (s : Session) (trigger : Trigger) (moment : Nat) : Prop :=
  ∀ timer ∈ s.ticker.timers, timer.label.trigger = trigger → moment ≤ timer.wake

/-- No timer comes late. -/
def TimersOnTime (s : Session) : Prop := ∀ timer ∈ s.ticker.timers, s.clock ≤ timer.wake

/-- **In a punctual run no timer comes late.** -/
lemma TimersOnTime.apply (h : s.TimersOnTime) (ht : s.Timed) (hm : s.InTime m) :
    (s.apply m).TimersOnTime := by
  intro other hother
  by_cases helapse : ∃ moment, m = .elapse moment
  · obtain ⟨moment, rfl⟩ := helapse
    exact hm.le_wake_timer hother
  · rw [clock_apply fun moment heq => helapse ⟨moment, heq⟩]
    obtain ⟨timer, hmem, -, rfl⟩ | ⟨delivery, -, -, -, hwake⟩ := timer_cases ht hother
    · exact (h timer hmem).trans (timer.wake_le_wake_after _)
    · exact (Nat.le_add_right _ _).trans hwake

lemma timersOnTime_run (h : (ofDocument host document).Punctual before) :
    ((ofDocument host document).run before).TimersOnTime := by
  induction before using List.reverseRecOn with
  | nil => exact fun _ ht => absurd ht List.not_mem_nil
  | append_singleton moves m ih =>
      obtain ⟨hmoves, hlast, -⟩ := punctual_append.mp h
      rw [run_concat]
      exact (ih hmoves).apply (timed_run host document moves) hlast

section Gap

variable {declared : Nat}

/-- A timer of the trigger that has just been started rests for its interval. -/
lemma le_wake_of_begun
    (hdeclared : (ofDocument host document).tree.repeatInterval? trigger.source trigger.action
      = some declared) {timer : Timer Refire}
    (hbegun : ((ofDocument host document).run before).begun? m = some timer)
    (htrigger : timer.label.trigger = trigger)
    (hwake : ((ofDocument host document).run before).clock + timer.interval / 1000 ≤ timer.wake) :
    ((ofDocument host document).run before).clock + host.dispatch.clampRepeat declared / 1000
      ≤ timer.wake := by
  obtain ⟨interval, hinterval, heq⟩ := (times_of_begun hbegun).interval
  subst htrigger
  obtain rfl : interval = declared := Option.some.inj (hinterval.symm.trans hdeclared)
  rwa [← heq]

/-- After an execution by a delivery the timer of the trigger rests for its interval. -/
lemma restsUntil_of_resumed
    (hdeclared : (ofDocument host document).tree.repeatInterval? trigger.source trigger.action
      = some declared) {delivery : Delivery}
    (h : ((ofDocument host document).run before).resumed m = some delivery)
    (htrigger : delivery.trigger = trigger) :
    (((ofDocument host document).run before).apply m).RestsUntil trigger
      (((ofDocument host document).run before).clock
        + host.dispatch.clampRepeat declared / 1000) := by
  intro other hother hof
  obtain ⟨timer, ht, hgoes, rfl⟩ | ⟨-, -, hbegun, -, hwake⟩ :=
    timer_cases (timed_run host document before) hother
  · exact absurd (ends_of_resumed h ht (hof.trans htrigger.symm)) hgoes
  · exact le_wake_of_begun hdeclared hbegun hof hwake

/-- After a repetition that does not come late the timer of the trigger rests for its interval. -/
lemma restsUntil_of_requeued
    (hdeclared : (ofDocument host document).tree.repeatInterval? trigger.source trigger.action
      = some declared)
    (htime : ((ofDocument host document).run before).TimersOnTime)
    (h : ((ofDocument host document).run before).requeued trigger m ≠ []) :
    (((ofDocument host document).run before).apply m).RestsUntil trigger
      (((ofDocument host document).run before).clock
        + host.dispatch.clampRepeat declared / 1000) := by
  obtain ⟨ticking, hticked, htrigger⟩ := ticked_of_requeued h
  have hmem := mem_of_ticked hticked
  intro other hother hof
  obtain ⟨timer, ht, -, rfl⟩ | ⟨-, -, hbegun, -, hwake⟩ :=
    timer_cases (timed_run host document before) hother
  · obtain rfl : timer = ticking := eq_of_trigger ht hmem (hof.trans htrigger.symm)
    obtain ⟨interval, hinterval, heq⟩ := (times_run host document before timer ht).interval
    subst htrigger
    obtain rfl : interval = declared := Option.some.inj (hinterval.symm.trans hdeclared)
    rw [ticks_of_some hticked, if_pos rfl, Timer.after_one, ← heq]
    exact (Nat.add_le_add_right (htime timer ht) _).trans timer.wake_add_le_wake_next
  · exact le_wake_of_begun hdeclared hbegun hof hwake

/-- The timer of a trigger rests until a moment, whatever happens: what is started later rests
longer. -/
lemma RestsUntil.run
    (hdeclared : (ofDocument host document).tree.repeatInterval? trigger.source trigger.action
      = some declared) {moment : Nat}
    (h : ((ofDocument host document).run before).RestsUntil trigger
      (moment + host.dispatch.clampRepeat declared / 1000))
    (hmoment : moment ≤ ((ofDocument host document).run before).clock) (after : List Move) :
    (((ofDocument host document).run before).run after).RestsUntil trigger
      (moment + host.dispatch.clampRepeat declared / 1000) := by
  induction after generalizing before with
  | nil => exact h
  | cons m after ih =>
      rw [run_cons, ← run_concat]
      refine ih ?_ ?_
      · rw [run_concat]
        intro other hother hof
        obtain ⟨timer, ht, -, rfl⟩ | ⟨-, -, hbegun, -, hwake⟩ :=
          timer_cases (timed_run host document before) hother
        · exact (h timer ht hof).trans (timer.wake_le_wake_after _)
        · exact (Nat.add_le_add_right hmoment _).trans (le_wake_of_begun hdeclared hbegun hof hwake)
      · rw [run_concat]
        exact hmoment.trans (le_clock_apply _ m)

end Gap

/-! ### What a repetition runs -/

/-- A source that does not drop an event is shown and, if it is a control, enabled. -/
lemma shown_of_dropReason? {source : Entity} {scope : Scope}
    (h : s.dropReason? source scope = none) :
    source.suppressed = false
      ∧ (source.role = .control → Gate.isOpen s.host.evaluator scope source.enabled = .ok true) := by
  rw [dropReason?] at h
  split_ifs at h with hhidden hcontrol
  · refine ⟨by simpa using hhidden, fun _ => ?_⟩
    split at h
    · assumption
    · cases h
    · cases h
  · exact ⟨by simpa using hhidden, fun hrole => absurd hrole hcontrol⟩

/-- **A repetition runs its action only if it comes to it**: the source is shown and enabled, and the
gates of the action are open. -/
lemma reaches_of_firing {firing : Firing} (h : firing ∈ s.firings m) (hrefires : s.resumed m = none) :
    ∃ source index e, m = .advance (.lane source)
      ∧ s.Reaches source (.refire firing.action firing.event) index e
      ∧ s.admits firing.event firing.action = true := by
  unfold firings at h
  split at h
  · rename_i source
    split at h
    · cases h
    · -- A delivery that goes on is no repetition.
      rename_i delivery hopen hwork
      split_ifs at h with hwake
      · have hresumed := resumed_eq_some_iff.mpr ⟨source, rfl, hopen, hwork, hwake⟩
        rw [hresumed] at hrefires
        cases hrefires
      · cases h
    · rename_i action event queue hopen hwork hqueue
      obtain rfl := mem_refireFirings h
      rw [refireFirings, plan_opened] at h
      split at h
      · rename_i steps hplan
        obtain ⟨other, hother, hfiring⟩ := List.mem_map.mp h
        obtain rfl : other = action := congrArg Firing.action hfiring
        simp only [plan, Option.bind_eq_bind, Option.bind_eq_some_iff] at hplan
        obtain ⟨index, hfind, e, he, hplan⟩ := hplan
        split at hplan
        · cases hplan
        · rename_i hdrop
          cases hplan
          obtain ⟨hshown, henabled⟩ := shown_of_dropReason? hdrop
          rw [← scopeOn, filterMap_planStep_action?] at hother
          exact ⟨source, index, e, rfl,
            ⟨hopen, hwork, by rw [hqueue]; rfl, hfind, he, hshown, henabled⟩,
            (List.mem_filter.mp hother).2⟩
      · cases h
    · cases h
  · cases h

/-- A provider with a lamp that goes on blinking. -/
def lamp : Document where
  members := [("id", .string "screen"), ("dataProviders", .array [.object [("id", .string "feed"),
    ("type", .string "json"), ("actions", .array [.object [("id", .string "blink"),
      ("on", .string "success"), ("if", .string "session.broken != true"),
      ("repeatDelay", .string "10.5")]])]])]

/-- A host that allows three repetitions. -/
def sparing : Host := { Host.answering 0 (.ok .null) with dispatch := { maxRepeats := 3 } }

end Session

end Componentry

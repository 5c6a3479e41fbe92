import Mathlib.Tactic
import Componentry.Proofs.Session.Clock
import Componentry.Proofs.Session.Gates
/-!
# Delays

The actions of a delivery run one after the other, and each of them waits for its own delay first.
So they have appointments: the action at a place is due when the delays up to this place have gone
by since the delivery began (`Tree.appointments`).

In a punctual run the appointments are kept.  What a delivery has run, with the moments at which it
has, together with the appointments that it has still to keep, is the same after every move
(`Session.kept_apply`).  `Session.run_delays` is the result for a delivery; it also says that the lane
takes its next message after the last of them only, and that no other lane has to wait for that.
-/

namespace Componentry

/-- An execution, and the moment at which it is due, in milliseconds. -/
structure Appointment where
  moment : Nat
  firing : Firing
  deriving DecidableEq

namespace Tree

variable {t u : Tree}

/-- How long an action waits before it runs, in milliseconds: its delay, rounded up. -/
def pause (tree : Tree) (action : Nat) : Nat :=
  roundUp (((tree.entity? action).bind Entity.delay).getD 0) / 1000

/-- A planned run waits for the pause of its action. -/
def Paces (tree : Tree) (_ : Event) (run : PlannedRun) : Prop :=
  roundUp (run.delay.getD 0) / 1000 = tree.pause run.action

/-- When actions are due that run on an event, one after the other from a moment on. -/
def appointments (tree : Tree) (event : Event) (moment : Nat) (actions : List Nat) :
    List Appointment :=
  actions.mapIdx fun j action =>
    ⟨moment + ((actions.take (j + 1)).map tree.pause).sum, ⟨action, event⟩⟩

@[simp] lemma appointments_nil (tree : Tree) (event : Event) (moment : Nat) :
    tree.appointments event moment [] = [] := rfl

/-- The first action is due after its own pause, and the others wait for it. -/
lemma appointments_cons (tree : Tree) (event : Event) (moment action : Nat) (rest : List Nat) :
    tree.appointments event moment (action :: rest)
      = ⟨moment + tree.pause action, ⟨action, event⟩⟩
        :: tree.appointments event (moment + tree.pause action) rest := by
  rw [appointments, appointments, List.mapIdx_cons]
  simp only [List.take_succ_cons, List.take_zero, List.map_cons, List.map_nil, List.sum_cons,
    List.sum_nil, Nat.add_zero, Nat.add_assoc]

lemma SameStructure.pause_eq (h : t.SameStructure u) : u.pause = t.pause := by
  funext action
  have hdelay := h.map_eq action Entity.delay fun _ => rfl
  rw [pause, pause]
  cases hu : u.entity? action <;> cases ht : t.entity? action <;> simp_all

lemma SameStructure.appointments_eq (h : t.SameStructure u) (event : Event) (moment : Nat)
    (actions : List Nat) :
    u.appointments event moment actions = t.appointments event moment actions := by
  rw [appointments, appointments, h.pause_eq]

end Tree

/-- The appointments of a delivery under way. -/
def Delivery.appointments (tree : Tree) (delivery : Delivery) : List Appointment :=
  ⟨delivery.wake, ⟨delivery.next.action, delivery.event⟩⟩
    :: tree.appointments delivery.event delivery.wake
        (delivery.rest.filterMap PlannedStep.action?)

lemma Delivery.appointments_eq {t u : Tree} (h : t.SameStructure u) :
    appointments u = appointments t := by
  funext delivery
  rw [appointments, appointments, h.appointments_eq]

namespace Session

variable {s : Session} {source : String} {event : Event} {delivery : Delivery}

/-- A lane has an event to deliver, and takes it with its next move. -/
structure Begins (s : Session) (source : String) (event : Event) : Prop where
  isOpen : s.closed = false
  idle : (s.lane source).work = none
  first : (s.lane source).queue.head? = some (.deliver event)

/-- The actions that run if an event is delivered now: none if its source drops it, and otherwise
those that the source binds to it and whose gates are open. -/
def runnable (s : Session) (event : Event) : List Nat :=
  match s.tree.find? event.source with
  | none => []
  | some index =>
    match s.tree.entity? index with
    | none => []
    | some e =>
      if (s.dropReason? e (s.scopeOn event)).isSome then []
      else (s.tree.boundActions index event.name).filter (s.admits event)

/-- The appointments that are left to the delivery under way on a lane. -/
def appointmentsLeft (s : Session) (source : String) : List Appointment :=
  (s.lane source).work.toList.flatMap (Delivery.appointments s.tree)

/-- The executions that a move makes for a source, each with the moment at which it is made. -/
def keptOn (s : Session) (source : String) (m : Move) : List Appointment :=
  (s.firingsOn source m).map (⟨s.clock, ·⟩)

/-- The executions that are made for a source along a run, each with its moment, in order. -/
def runKept (s : Session) (source : String) (moves : List Move) : List Appointment :=
  s.along (fun s m => s.keptOn source m) moves

/-! ### What is planned -/

lemma ofPlans_paces : OfPlans Tree.Paces where
  plan hplan hrun := by
    simp only [plan, Option.bind_eq_bind, Option.bind_eq_some_iff] at hplan
    obtain ⟨index, -, origin, -, hplan⟩ := hplan
    split at hplan
    · cases hplan
    · cases hplan
      obtain ⟨action, -, hstep⟩ := List.mem_filterMap.mp hrun
      obtain ⟨e, he, hstep⟩ := Option.map_eq_some_iff.mp hstep
      split at hstep
      · cases hstep
      · cases hstep
        rw [Tree.Paces, Tree.pause, he, Option.bind_some]
  congr h hpaces := by rwa [Tree.Paces, h.pause_eq]

/-- The actions that run are the ones that are planned. -/
lemma runnable_eq (s : Session) (event : Event) :
    s.runnable event = match s.plan event none with
      | some (.steps steps) => steps.filterMap PlannedStep.action?
      | _ => [] := by
  rw [runnable, plan]
  cases s.tree.find? event.source with
  | none => rfl
  | some index =>
      cases he : s.tree.entity? index with
      | none => simp [he]
      | some e =>
          simp only [Option.bind_eq_bind, Option.bind_some, he]
          cases hdrop : s.dropReason? e (s.scopeOn event) with
          | some reason =>
              rw [scopeOn] at hdrop
              simp [hdrop]
          | none =>
              rw [scopeOn] at hdrop
              simp only [hdrop, Option.isSome_none, Bool.false_eq_true, if_false]
              rw [← s.filterMap_planStep_action? e]
              simp [scopeOn]

/-- What a delivery goes on with has the appointments of the actions that are left. -/
lemma workFrom_appointments {steps : List PlannedStep}
    (h : ∀ run, .run run ∈ steps → s.tree.Paces event run) :
    (s.workFrom event steps).toList.flatMap (Delivery.appointments s.tree)
      = s.tree.appointments event s.clock (steps.filterMap PlannedStep.action?) := by
  induction steps with
  | nil => rfl
  | cons step rest ih =>
      cases step with
      | skip actionId reason =>
          rw [workFrom, List.filterMap_cons_none rfl]
          exact ih fun run hrun => h run (List.mem_cons_of_mem _ hrun)
      | run next =>
          have hnext : s.wakeFor next = s.clock + s.tree.pause next.action :=
            congrArg (s.clock + ·) (h next List.mem_cons_self)
          have haction : PlannedStep.action? (.run next) = some next.action := rfl
          rw [workFrom, List.filterMap_cons_some haction, Tree.appointments_cons, hnext]
          simp [Delivery.appointments]

/-! ### One move -/

lemma le_wake_of_workFrom {steps : List PlannedStep} (h : s.workFrom event steps = some delivery) :
    s.clock ≤ delivery.wake := by
  induction steps with
  | nil => cases h
  | cons step rest ih =>
      cases step with
      | skip actionId reason => exact ih h
      | run next =>
          cases h
          exact Nat.le_add_right _ _

/-- What is under way after a turn does not come late. -/
lemma le_wake_of_turn {turn : Turn} (hturn : s.turn source = some turn)
    (hw : turn.work = some delivery) : s.clock ≤ delivery.wake := by
  rw [Session.turn] at hturn
  split at hturn
  · split_ifs at hturn
    cases hturn
    exact le_wake_of_workFrom hw
  · cases hturn
  · cases hturn
    rw [deliverTurn] at hw
    split at hw
    · cases hw
    · cases hw
    · simpa using le_wake_of_workFrom hw
  · cases hturn
    rw [refireTurn_work] at hw
    cases hw

/-- The delivery under way on a lane does not come late. -/
def OnTime (s : Session) (source : String) : Prop :=
  ∀ delivery, (s.lane source).work = some delivery → s.clock ≤ delivery.wake

/-- **In a punctual run no delivery comes late.** -/
lemma OnTime.apply (h : s.OnTime source) {m : Move} (hm : s.InTime m) :
    (s.apply m).OnTime source := by
  intro delivery hw
  by_cases hlane : m = .advance (.lane source)
  · subst hlane
    rw [clock_apply (by simp)]
    rw [work_apply_lane] at hw
    split_ifs at hw
    cases hturn : s.turn source with
    | none =>
        rw [hturn] at hw
        exact h delivery hw
    | some turn =>
        rw [hturn] at hw
        exact le_wake_of_turn hturn hw
  · rw [(s.step_apply m).work source hlane] at hw
    exact hm.le_wake_apply hw (h delivery hw)

/-- A lane that takes no message runs nothing unless a delivery is under way. -/
lemma rests_of_taken (hc : s.closed = false) (hs : s.Sourced)
    (hw : (s.lane source).work = none) {m : Move} (htaken : s.taken source m = []) :
    s.firingsOn source m = [] ∧ ((s.apply m).lane source).work = none := by
  by_cases hm : m = .advance (.lane source)
  · subst hm
    have hq : (s.lane source).queue = [] := by simpa [taken, hw] using htaken
    have hturn : s.turn source = none := by rw [turn, hw, hq]
    exact ⟨by simp [firingsOn, firings, hc, hw, hq], by rw [apply_lane_of_rest hc hturn, hw]⟩
  · exact ⟨firingsOn_of_ne hs hm, ((s.step_apply m).work source hm).trans hw⟩

/-- **Appointments are kept**: what a move runs for the source, at its moment, together with the
appointments that are left then, is what was left before. -/
lemma kept_apply (hc : s.closed = false) (hs : s.Sourced) (hp : s.Planned Tree.Paces)
    (htime : s.OnTime source) {m : Move} (htaken : s.taken source m = []) :
    s.keptOn source m ++ (s.apply m).appointmentsLeft source = s.appointmentsLeft source := by
  rw [appointmentsLeft, appointmentsLeft, keptOn,
    Delivery.appointments_eq (s.step_apply m).tree]
  cases hw : (s.lane source).work with
  | none =>
      obtain ⟨hfirings, hwork⟩ := rests_of_taken hc hs hw htaken
      rw [hfirings, hwork]
      rfl
  | some delivery =>
      obtain ⟨rfl, hwake⟩ | ⟨hwork, hfirings, -⟩ := goesOn_cases hc hs hw m
      · have hmoment : s.clock = delivery.wake := (htime delivery hw).antisymm hwake
        have hof : delivery.event.source = source := hs.work source delivery hw
        have hfirings : s.firingsOn source (.advance (.lane source))
            = [⟨delivery.next.action, delivery.event⟩] := by
          simp [firingsOn, firings, hc, hw, hwake, hof]
        have hrest : ∀ run, .run run ∈ delivery.rest → s.tree.Paces delivery.event run :=
          fun run hrun => hp source delivery hw run (List.mem_cons_of_mem _ hrun)
        rw [apply_lane_work hc (turn_of_wake hw hwake), hfirings, nextTurn,
          workFrom_appointments hrest, hmoment]
        simp [Delivery.appointments]
      · rw [hwork, hfirings]
        rfl

/-! ### Along a delivery -/

/-- **Appointments are kept** along a run in which the lane takes no message. -/
lemma kept_run (hc : s.closed = false) (ht : s.tree.Sound) (hs : s.Sourced)
    (hp : s.Planned Tree.Paces) (htime : s.OnTime source) {moves : List Move} (hpunctual : s.Punctual moves) (hopen : .teardown ∉ moves)
    (htakings : s.takings source moves = []) :
    s.runKept source moves ++ (s.run moves).appointmentsLeft source = s.appointmentsLeft source
      ∧ (s.run moves).OnTime source := by
  induction moves generalizing s with
  | nil => exact ⟨rfl, htime⟩
  | cons m moves ih =>
      obtain ⟨hfirst, hrest⟩ := hpunctual
      rw [List.mem_cons, not_or] at hopen
      rw [takings, along_cons, List.append_eq_nil_iff] at htakings
      have hstays : (s.apply m).closed = false := by simp [closed_apply, hc, Ne.symm hopen.1]
      have hstep := kept_apply hc hs hp htime htakings.1
      obtain ⟨hlater, hlast⟩ := ih hstays ((s.step_apply m).tree.sound ht) (hs.apply ht m)
        (ofPlans_paces.apply hp m) (htime.apply hfirst) hrest hopen.2 htakings.2
      refine ⟨?_, hlast⟩
      rw [runKept, along_cons, List.append_assoc, run_cons, ← runKept, hlater, hstep]

/-- What a lane that takes an event has still to run then are the appointments of the event. -/
lemma Begins.appointmentsLeft (h : s.Begins source event) :
    (s.apply (.advance (.lane source))).appointmentsLeft source
      = s.tree.appointments event s.clock (s.runnable event) := by
  obtain ⟨queue, hq⟩ := List.head?_eq_some_iff.mp h.first
  have hturn : s.turn source = some ((s.opened source).deliverTurn event) := by
    rw [turn, h.idle, hq]
  rw [Session.appointmentsLeft, apply_lane_work h.isOpen hturn,
    Delivery.appointments_eq (s.step_apply (.advance (.lane source))).tree, runnable_eq,
    ← s.plan_opened source, deliverTurn]
  cases hplan : (s.opened source).plan event none with
  | none => rfl
  | some plan =>
      cases plan with
      | dropped reason => rfl
      | steps steps =>
          have hpaces : ∀ run, .run run ∈ steps → (s.opened source).tree.Paces event run :=
            fun run hrun => ofPlans_paces.plan hplan hrun
          have hwork := workFrom_appointments hpaces
          rwa [opened_tree, opened_clock] at hwork

/-- A lane that takes an event runs nothing with this move. -/
lemma Begins.keptOn (h : s.Begins source event) :
    s.keptOn source (.advance (.lane source)) = [] := by
  obtain ⟨queue, hq⟩ := List.head?_eq_some_iff.mp h.first
  simp [Session.keptOn, firingsOn, firings, h.isOpen, h.idle, hq]

/-- A lane waits for an appointment: it is not past, and when its moment has come the lane is ready and
makes the execution with its move. -/
structure Awaits (s : Session) (source : String) (next : Appointment) : Prop where
  le : s.clock ≤ next.moment
  ready : s.clock = next.moment → .lane source ∈ s.ready
  kept : s.clock = next.moment → s.keptOn source (.advance (.lane source)) = [next]

/-- The first appointment that is left is the one that the lane waits for. -/
lemma OnTime.awaits (htime : s.OnTime source) (hc : s.closed = false) (hs : s.Sourced)
    {next : Appointment} (h : next ∈ (s.appointmentsLeft source).head?) :
    s.Awaits source next := by
  rw [Session.appointmentsLeft] at h
  cases hw : (s.lane source).work with
  | none => simp [hw] at h
  | some delivery =>
      obtain rfl : next = ⟨delivery.wake, ⟨delivery.next.action, delivery.event⟩⟩ := by
        simpa [hw, Delivery.appointments, eq_comm] using h
      refine ⟨htime delivery hw, fun hmoment => ?_, fun hmoment => ?_⟩
      · exact ready_of_lane (by simp [Lane.weight, hw]) (by simp [Lane.isReady, hw, hmoment])
      · have hof : delivery.event.source = source := hs.work source delivery hw
        simp [keptOn, firingsOn, firings, hc, hw, hof, hmoment]

/-- A lane takes a message only when it has no appointment left. -/
lemma appointmentsLeft_of_taken {m : Move} (h : s.taken source m ≠ []) :
    s.appointmentsLeft source = [] := by
  unfold taken at h
  split at h
  · split_ifs at h with hidle
    · rw [Session.appointmentsLeft, hidle.2]
      rfl
    · exact absurd rfl h
  · exact absurd rfl h

/-- **The delays of a delivery add up.**  A lane takes an event at some moment.  Until it takes its
next message, and as long as the session is not torn down, what it has run and has still to run are
the actions that were runnable at that moment, in order, each at the moment plus the pauses up to its
own; the next of them is not past, and its lane is ready when its moment comes.  The next message is
taken only when all of them have run, and meanwhile no time passes while a lane has a message that it
can take. -/
theorem run_delays (host : Host) (document : Document) (before : List Move) {source : String}
    {event : Event} (h : ((ofDocument host document).run before).Begins source event) :
    let s := (ofDocument host document).run before
    let t := s.apply (.advance (.lane source))
    let due := s.tree.appointments event s.clock (s.runnable event)
    ∀ after, t.Punctual after → .teardown ∉ after →
      (t.takings source after = [] →
          s.runKept source (.advance (.lane source) :: after)
                ++ (t.run after).appointmentsLeft source = due
            ∧ (∀ next ∈ ((t.run after).appointmentsLeft source).head?,
              (t.run after).Awaits source next)
            ∧ ∀ m, (t.run after).taken source m ≠ [] →
              s.runKept source (.advance (.lane source) :: after) = due)
        ∧ ∀ other, ((t.run after).lane other).work = none → ((t.run after).lane other).queue ≠ [] →
          ∀ more, (t.run after).Punctual more → .advance (.lane other) ∉ more →
            ((t.run after).run more).clock = (t.run after).clock := by
  intro s t due after hpunctual hopen
  refine ⟨fun htakings => ?_, fun other hidle hq more hmore hlane =>
    hmore.clock_run hidle hq hlane⟩
  have hsound : s.tree.Sound := sound_run (sound_ofDocument host document) before
  have hsourced : s.Sourced :=
    sourced_run (sourced_start host _) (sound_ofDocument host document) before
  have hplanned : s.Planned Tree.Paces := ofPlans_paces.run host document before
  have hstays : t.closed = false := by simp [t, closed_apply, h.isOpen, s]
  -- Nothing is under way when the message is taken, so nothing is late.
  have hidle : s.OnTime source := fun delivery hw => by
    rw [h.idle] at hw
    cases hw
  have htsound : t.tree.Sound := (s.step_apply _).tree.sound hsound
  have htsourced : t.Sourced := hsourced.apply hsound _
  obtain ⟨hkept, htime⟩ := kept_run hstays htsound htsourced (ofPlans_paces.apply hplanned _)
    (hidle.apply trivial) hpunctual hopen htakings
  have hall : s.runKept source (.advance (.lane source) :: after)
      ++ (t.run after).appointmentsLeft source = due := by
    rw [runKept, along_cons, h.keptOn, List.nil_append, ← runKept, hkept]
    exact h.appointmentsLeft
  refine ⟨hall, fun next hnext => ?_, fun m htaken => ?_⟩
  · have hopen' : (t.run after).closed = false := by simp [closed_run, hstays, hopen]
    exact htime.awaits hopen' (sourced_run htsourced htsound after) hnext
  · rw [← hall, appointmentsLeft_of_taken htaken, List.append_nil]

/-- A screen on whose success one knocks, rings, peeps and enters; one would also shout, but is not
let.  A provider has an action of its own. -/
def visit : Document where
  members := [("id", .string "screen"),
    ("actions", .array [
      .object [("id", .string "knock"), ("on", .string "success")],
      .object [("id", .string "shout"), ("on", .string "success"), ("enabled", .bool false),
        ("delay", .number (.int 100))],
      .object [("id", .string "ring"), ("on", .string "success"), ("delay", .number (.int 0))],
      .object [("id", .string "peep"), ("on", .string "success"), ("delay", .string "0.4")],
      .object [("id", .string "enter"), ("on", .string "success"),
        ("delay", .number (.int 20))]]),
    ("dataProviders", .array [.object [("id", .string "feed"), ("type", .string "json"),
      ("actions", .array [.object [("id", .string "note"), ("on", .string "success")]])]])]

/-- A host on which an action without a delay of its own waits for five milliseconds. -/
def unhurried : Host := { Host.answering 0 (.ok .null) with dispatch := { defaultDelay := 5 } }

/-- One knocks after five milliseconds, rings at once, peeps a millisecond later and enters after
twenty more; the event of the provider does not wait for that. -/
theorem run_delays_visit :
    let event : Event := ⟨⟨"success"⟩, "screen", none⟩
    let before : List Move := [.elapse 7, .raise "screen" "success" none]
    let s := (ofDocument unhurried visit).run before
    let t := s.apply (.advance (.lane "screen"))
    let during : List Move := [.elapse 12, .advance (.lane "screen"), .advance (.lane "screen"),
      .elapse 13, .advance (.lane "screen"), .raise "feed" "success" none]
    let later : List Move := [.advance (.lane "feed"), .elapse 18, .advance (.lane "feed"),
      .elapse 33, .advance (.lane "screen"), .raise "screen" "success" none]
    s.Begins "screen" event
      ∧ t.Punctual (during ++ later)
      ∧ s.runKept "screen" (.advance (.lane "screen") :: (during ++ later))
        = [⟨12, ⟨3, event⟩⟩, ⟨12, ⟨5, event⟩⟩, ⟨13, ⟨6, event⟩⟩, ⟨33, ⟨7, event⟩⟩]
      ∧ (t.run during).Awaits "screen" ⟨33, ⟨7, event⟩⟩
      ∧ ∀ more, (t.run during).Punctual more → .advance (.lane "feed") ∉ more →
        ((t.run during).run more).clock = 13 := by
  intro event before s t during later
  obtain ⟨⟨hopen, hidle, hfirst⟩, hpunctual, hstays, htakings⟩ :
      (s.closed = false ∧ (s.lane "screen").work = none
          ∧ (s.lane "screen").queue.head? = some (.deliver event))
        ∧ t.Punctual (during ++ later) ∧ .teardown ∉ during ++ later
        ∧ t.takings "screen" (during ++ later) = [] := by
    decide +kernel
  obtain ⟨hdue, htaken, hnext, hfeed, hqueue, hclock⟩ :
      s.tree.appointments event s.clock (s.runnable event)
          = [⟨12, ⟨3, event⟩⟩, ⟨12, ⟨5, event⟩⟩, ⟨13, ⟨6, event⟩⟩, ⟨33, ⟨7, event⟩⟩]
        ∧ (t.run (during ++ later)).taken "screen" (.advance (.lane "screen")) ≠ []
        ∧ ((t.run during).appointmentsLeft "screen").head? = some ⟨33, ⟨7, event⟩⟩
        ∧ ((t.run during).lane "feed").work = none ∧ ((t.run during).lane "feed").queue ≠ []
        ∧ (t.run during).clock = 13 := by
    decide +kernel
  have hbegins : s.Begins "screen" event := ⟨hopen, hidle, hfirst⟩
  have hduring : t.Punctual during ∧ .teardown ∉ during ∧ t.takings "screen" during = [] := by
    decide +kernel
  obtain ⟨hall, -⟩ := run_delays unhurried visit before hbegins (during ++ later) hpunctual hstays
  obtain ⟨hpart, hother⟩ :=
    run_delays unhurried visit before hbegins during hduring.1 hduring.2.1
  obtain ⟨-, hawaits, -⟩ := hpart hduring.2.2
  obtain ⟨-, -, hlast⟩ := hall htakings
  refine ⟨hbegins, hpunctual, (hlast _ htaken).trans hdue, hawaits _ hnext, fun more hmore hm => ?_⟩
  exact (hother "feed" hfeed hqueue more hmore hm).trans hclock

end Session

end Componentry

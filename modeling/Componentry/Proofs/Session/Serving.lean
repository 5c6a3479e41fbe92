import Mathlib.Tactic
import Componentry.Proofs.Session.Provider
import Componentry.Proofs.Ticker
/-!
# What lanes and repeats serve

An action comes to run because the entity that the source of an event addresses binds it to the
event, and is not suppressed (`Tree.Serves`).  `plan_serves` says that nothing else is planned, and
`Session.Served` that it stays so: every delivery under way, every timer and every repetition on a
lane goes back to a binding of this kind.  The invariant holds along every run (`served_run`), and
what a lane executes is an action that it serves (`Served.completion`).

A stretch of work that leaves the ticker and the requests alone is one that `Session.Works`.  All of
a session's work is of this kind, but for three functions: a repeat starts a timer, a tick ends one,
and a load makes a request.  `Session.Does` has these cases for a move, and from it follow
`timers_apply` and `requests_apply`.
-/

namespace Componentry

namespace Tree

/-- An action that an event is served with: the entity that the source of the event addresses binds
the action to the event, and is not suppressed. -/
def Serves (tree : Tree) (event : Event) (run : PlannedRun) : Prop :=
  ∃ index source e, tree.find? event.source = some index ∧ tree.entity? index = some source
    ∧ source.suppressed = false ∧ run.action ∈ tree.boundActions index event.name
    ∧ tree.entity? run.action = some e
    ∧ run.interval = if source.behaviour.supportsRepetition then e.repeatDelay else none

/-- An action that an event is served with, and that repeats. -/
def Repeats (tree : Tree) (event : Event) (action : Nat) : Prop :=
  ∃ run, tree.Serves event run ∧ run.action = action ∧ run.interval ≠ none

lemma Serves.lt_size {t : Tree} {event : Event} {run : PlannedRun} (h : t.Serves event run) :
    run.action < t.size := by
  obtain ⟨_, _, e, -, -, -, -, he, -⟩ := h
  exact Tree.lt_size_iff.mpr ⟨e, he⟩

lemma SameStructure.serves {t u : Tree} (h : t.SameStructure u) {event : Event} {run : PlannedRun}
    (hserves : t.Serves event run) : u.Serves event run := by
  obtain ⟨index, source, e, hfind, hsource, hopen, hbound, he, hinterval⟩ := hserves
  obtain ⟨source', hsource', hframe⟩ := h.exists_entity hsource
  obtain ⟨e', he', hframe'⟩ := h.exists_entity he
  have hsuppressed : source'.frame.suppressed = source.frame.suppressed := by rw [hframe]
  have hbehaviour : source'.frame.behaviour = source.frame.behaviour := by rw [hframe]
  have hrepeat : e'.frame.repeatDelay = e.frame.repeatDelay := by rw [hframe']
  refine ⟨index, source', e', by rw [h.find?_eq, hfind], hsource', hsuppressed.trans hopen,
    by rwa [h.boundActions_eq], he', ?_⟩
  rw [show source'.behaviour = source.behaviour from hbehaviour,
    show e'.repeatDelay = e.repeatDelay from hrepeat]
  exact hinterval

lemma SameStructure.repeats {t u : Tree} (h : t.SameStructure u) {event : Event} {action : Nat}
    (hrepeats : t.Repeats event action) : u.Repeats event action := by
  obtain ⟨run, hserves, hrest⟩ := hrepeats
  exact ⟨run, h.serves hserves, hrest⟩

end Tree

namespace Session

variable {s t u : Session}

/-! ### Planning -/

/-- What is planned serves the event and is known by its id; if one action only is planned for, it is
that one. -/
lemma plan_serves {event : Event} {only : Option Nat} {steps : List PlannedStep}
    (h : s.plan event only = some (.steps steps)) {run : PlannedRun} (hrun : .run run ∈ steps) :
    s.tree.Serves event run ∧ s.tree.idAt? run.action = some run.actionId
      ∧ ∀ action ∈ only, run.action = action := by
  simp only [plan, Option.bind_eq_bind, Option.bind_eq_some_iff] at h
  obtain ⟨index, hfind, source, hsource, h⟩ := h
  split at h
  · cases h
  · rename_i hdrop
    cases h
    obtain ⟨action, ha, hstep⟩ := List.mem_filterMap.mp hrun
    obtain ⟨hbound, honly⟩ := List.mem_filter.mp ha
    obtain ⟨e, he, hplan⟩ := Option.map_eq_some_iff.mp hstep
    have hopen : source.suppressed = false := by
      by_contra hne
      rw [dropReason?, if_pos (by simpa using hne)] at hdrop
      cases hdrop
    split at hplan
    · cases hplan
    · cases hplan
      refine ⟨⟨index, source, e, hfind, hsource, hopen, hbound, he, rfl⟩,
        Tree.idAt?_of_entity? he, fun other hother => ?_⟩
      rw [hother] at honly
      simpa [eq_comm] using honly

/-- What a delivery goes on with is among the steps that are left. -/
lemma workFrom_mem {event : Event} {steps : List PlannedStep} {d : Delivery}
    (h : s.workFrom event steps = some d) {run : PlannedRun}
    (hrun : .run run ∈ PlannedStep.run d.next :: d.rest) : .run run ∈ steps := by
  induction steps with
  | nil => cases h
  | cons step rest ih =>
      cases step with
      | run next =>
          cases h
          exact hrun
      | skip actionId reason => exact List.mem_cons_of_mem _ (ih h)

/-! ### Stretches of work -/

/-- A stretch of work that leaves the ticker and the requests alone, and lists no lane twice. -/
structure Works (s t : Session) : Prop where
  ticker : t.ticker = s.ticker
  requests : t.requests = s.requests
  keys : s.lanes.keys.Nodup → t.lanes.keys.Nodup

namespace Works

lemma of_eq (hticker : t.ticker = s.ticker) (hrequests : t.requests = s.requests)
    (hlanes : t.lanes = s.lanes) : s.Works t :=
  ⟨hticker, hrequests, fun h => by rwa [hlanes]⟩

lemma refl (s : Session) : s.Works s := .of_eq rfl rfl rfl

lemma trans (h : s.Works t) (h' : t.Works u) : s.Works u :=
  ⟨h'.ticker.trans h.ticker, h'.requests.trans h.requests, fun hn => h'.keys (h.keys hn)⟩

end Works

lemma works_setLane (s : Session) (source : String) (lane : Lane) :
    s.Works (s.setLane source lane) := by
  refine ⟨rfl, rfl, fun h => ?_⟩
  rw [setLane, Keyed.keys_insert]
  split_ifs with hmem
  · exact h
  · refine h.append (List.nodup_singleton _) fun key hkey hsource => hmem ?_
    rwa [List.mem_singleton.mp hsource] at hkey

lemma works_finishWork (s : Session) (source : String) : s.Works (s.finishWork source) :=
  (s.works_setLane source _).trans (.of_eq rfl rfl rfl)

lemma works_enqueue (s : Session) (source : String) (message : Message) :
    s.Works (s.enqueue source message) := by
  rw [enqueue]
  split_ifs
  · exact .refl s
  · exact (s.works_setLane source _).trans (.of_eq rfl rfl rfl)

lemma works_raiseLifecycle (s : Session) (index : Nat)
    (events : List (LifecycleEvent × Option Json)) : s.Works (s.raiseLifecycle index events) := by
  rw [s.raiseLifecycle_eq_post ⟨index, events⟩]
  generalize s.messagesOf ⟨index, events⟩ = posts
  induction posts generalizing s with
  | nil => exact .refl s
  | cons first rest ih => exact (s.works_enqueue first.1 first.2).trans (ih _)

lemma works_acceptLoad? (s : Session) (provider : Option Nat) : s.Works (s.acceptLoad? provider) := by
  cases provider <;> exact .of_eq rfl rfl rfl

lemma works_perform (s : Session) (effect : Effect) : s.Works (s.perform effect).1 := by
  cases effect with
  | merge place changes animated =>
      cases place with
      | entity index =>
          simp only [perform, notifyUpdate]
          split
          · split_ifs <;> exact .of_eq rfl rfl rfl
          · exact .of_eq rfl rfl rfl
      | _ => exact .of_eq rfl rfl rfl
  | _ => exact .of_eq rfl rfl rfl

lemma works_carryOut (s : Session) (verdict : Verdict) : s.Works (s.carryOut verdict).1 := by
  have hreports : s.Works { s with reports := s.reports ++ verdict.reports } := .of_eq rfl rfl rfl
  unfold carryOut
  dsimp only
  cases verdict.result with
  | error failure => exact hreports
  | ok effect =>
      have hperform := hreports.trans (works_perform _ effect)
      dsimp only
      split <;> rename_i hp <;> rw [hp] at hperform <;> exact hperform

lemma works_execute (s : Session) (index : Nat) (event : Event) :
    s.Works (s.execute index event) := by
  cases he : s.tree.entity? index with
  | none =>
      rw [execute, he]
      exact .refl s
  | some e =>
      rw [execute_eq he]
      have hsettled : s.Works (((s.carryOut (s.verdict e event)).1.setState index
          (s.ending e event).state).record event (some e.id) (s.ending e event).outcome) :=
        (s.works_carryOut (s.verdict e event)).trans (.of_eq rfl rfl rfl)
      exact (hsettled.trans (works_acceptLoad? _ _)).trans (works_raiseLifecycle _ _ _)

lemma works_proceed (s : Session) (source : String) (event : Event) (steps : List PlannedStep) :
    s.Works (s.proceed source event steps) := by
  have hrecorded : s.Works (s.recordAll (skipRecords event steps)) := .of_eq rfl rfl rfl
  rw [proceed_eq]
  refine hrecorded.trans ?_
  cases s.workFrom event steps with
  | none => exact works_finishWork _ source
  | some delivery => exact works_setLane _ source _

lemma works_deliver (s : Session) (source : String) (event : Event) :
    s.Works (s.deliver source event) := by
  have hrecorded : ∀ outcome, s.Works (s.record event none outcome) := fun _ => .of_eq rfl rfl rfl
  rw [deliver]
  split
  · exact s.works_finishWork source
  · exact (hrecorded _).trans (works_finishWork _ source)
  · exact (hrecorded _).trans (works_proceed _ source event _)

lemma works_refire (s : Session) (source : String) (action : Nat) (event : Event) :
    s.Works (s.refire source action event) := by
  have hsteps : ∀ (steps : List PlannedStep) (t : Session),
      t.Works (steps.foldl (fun s step => s.refireStep event step) t) := by
    intro steps
    induction steps with
    | nil => exact .refl
    | cons step rest ih =>
        intro t
        refine Works.trans ?_ (ih _)
        cases step with
        | run run => exact t.works_execute run.action event
        | skip actionId reason => exact .of_eq rfl rfl rfl
  rw [refire]
  split
  · exact (hsteps _ s).trans (works_finishWork _ source)
  · exact s.works_finishWork source

/-- The delivery whose next action a move runs. -/
def resumed (s : Session) : Move → Option Delivery
  | .advance (.lane source) =>
    if s.closed then none else (s.lane source).work.filter fun delivery => delivery.wake ≤ s.clock
  | _ => none

lemma resumed_eq_some_iff {m : Move} {delivery : Delivery} :
    s.resumed m = some delivery ↔ ∃ source, m = .advance (.lane source) ∧ s.closed = false
      ∧ (s.lane source).work = some delivery ∧ delivery.wake ≤ s.clock := by
  unfold resumed
  split
  · rename_i source
    by_cases hc : s.closed = true
    · simp [hc]
    · simp [hc, Option.filter_eq_some_iff]
  · rename_i hm
    simp only [reduceCtorEq, false_iff]
    rintro ⟨source, rfl, -⟩
    exact hm source rfl

/-- The timer that a move lets tick. -/
def ticked (s : Session) : Move → Option (Timer Refire)
  | .advance (.timer generation) =>
    (s.ticker.timer? generation).filter fun timer => timer.wake ≤ s.clock
  | _ => none

lemma ticked_eq_some_iff {m : Move} {timer : Timer Refire} :
    s.ticked m = some timer ↔ ∃ generation, m = .advance (.timer generation)
      ∧ s.ticker.timer? generation = some timer ∧ timer.wake ≤ s.clock := by
  unfold ticked
  split
  · rename_i generation
    simp [Option.filter_eq_some_iff]
  · rename_i hm
    simp only [reduceCtorEq, false_iff]
    rintro ⟨generation, rfl, -⟩
    exact hm generation rfl

lemma mem_of_ticked {m : Move} {timer : Timer Refire} (h : s.ticked m = some timer) :
    timer ∈ s.ticker.timers := by
  obtain ⟨generation, -, htimer, -⟩ := ticked_eq_some_iff.mp h
  exact List.mem_of_find?_eq_some htimer

/-- The move of a lane leaves the ticker alone, or it goes on with a delivery and starts the repeat
of the action that has run. -/
lemma works_advanceLane (s : Session) (source : String) :
    s.resumed (.advance (.lane source)) = none ∧ s.Works (s.advanceLane source)
      ∨ ∃ delivery, s.resumed (.advance (.lane source)) = some delivery
          ∧ ((s.execute delivery.next.action delivery.event).scheduleRepeat delivery.event
              delivery.next).Works (s.advanceLane source) := by
  rw [advanceLane, resumed]
  cases hw : (s.lane source).work with
  | some delivery =>
      dsimp only
      split_ifs with hc hwake
      · exact .inl ⟨rfl, s.works_finishWork source⟩
      · exact .inr ⟨delivery, by simp [hwake], works_proceed _ _ _ _⟩
      · exact .inl ⟨by simpa using hwake, .refl s⟩
  | none =>
      refine .inl ⟨by simp, ?_⟩
      cases (s.lane source).queue with
      | nil => exact .refl s
      | cons message queue =>
          have htaken := s.works_setLane source { queue }
          dsimp only
          split_ifs
          · exact htaken.trans (.of_eq rfl rfl rfl)
          · refine htaken.trans ?_
            cases message with
            | deliver event => exact works_deliver _ source event
            | refire action event => exact works_refire _ source action event

/-! ### Moves of loads and of the host -/

lemma works_completeLoad (s : Session) (provider : Nat) (result : LoadResult) :
    s.Works (s.completeLoad provider result) := by
  cases he : s.tree.entity? provider with
  | none =>
      rw [completeLoad, he]
      exact .refl s
  | some e =>
      have hmodified : s.Works (s.modifyEntity provider fun e => loaded e result) :=
        .of_eq rfl rfl rfl
      rw [completeLoad_eq he]
      exact hmodified.trans (works_raiseLifecycle _ _ _)

/-- A load asks its provider only if the provider is not suppressed; otherwise it makes no
request. -/
lemma works_beginLoad (s : Session) (load : Load) :
    s.Works (s.beginLoad load) ∨ ∃ e, s.tree.entity? load.provider = some e
      ∧ e.suppressed = false ∧ (s.beginLoad load).ticker = s.ticker
      ∧ (s.beginLoad load).lanes = s.lanes := by
  rw [beginLoad]
  split
  · exact .inl (.of_eq rfl rfl rfl)
  · rename_i e he
    split
    · exact .inl (.of_eq rfl rfl rfl)
    · split_ifs with hsuppressed
      · exact .inl (.of_eq rfl rfl rfl)
      · exact .inl (.of_eq rfl rfl rfl)
      · refine .inr ⟨e, he, by simpa using hsuppressed, ?_⟩
        rw [ask]
        split <;> exact ⟨rfl, rfl⟩

/-- The move of a load makes a request only for a provider that is not suppressed. -/
lemma works_advanceLoad (s : Session) (ticket : Nat) :
    s.Works (s.advanceLoad ticket) ∨ ∃ load ∈ s.loads, load.ticket = ticket
      ∧ load.answer = none ∧ (∃ e, s.tree.entity? load.provider = some e ∧ e.suppressed = false)
      ∧ (s.advanceLoad ticket).ticker = s.ticker ∧ (s.advanceLoad ticket).lanes = s.lanes := by
  rw [advanceLoad]
  split
  · exact .inl (.refl s)
  · rename_i load hfind
    have hticket : load.ticket = ticket := by simpa using List.find?_some hfind
    split
    · rename_i hanswer
      obtain h | ⟨e, he, hopen, hkept⟩ := s.works_beginLoad load
      · exact .inl h
      · exact .inr ⟨load, List.mem_of_find?_eq_some hfind, hticket, hanswer, ⟨e, he, hopen⟩, hkept⟩
    · rename_i arrival result _
      split_ifs
      · refine .inl ?_
        have hcompleted : s.Works
            (if s.closed then s else s.completeLoad load.provider result) := by
          split_ifs
          · exact .refl s
          · exact s.works_completeLoad _ _
        exact hcompleted.trans (.of_eq rfl rfl rfl)
      · exact .inl (.refl s)

lemma works_dispatch (s : Session) (event : Event) :
    s.Works (s.accepted (s.dispatch event)) := by
  rw [dispatch]
  split_ifs
  · exact .refl s
  · exact .refl s
  · exact .refl s
  · exact s.works_enqueue _ _

lemma works_complete (s : Session) (id : String) (outcome : LifecycleEvent)
    (payload : Option Json) : s.Works (s.accepted (s.complete id outcome payload)) := by
  rw [complete]
  split
  · exact .refl s
  · rename_i index e _
    split
    · exact .refl s
    · rename_i state _
      have hset : s.Works (s.setState index state) := .of_eq rfl rfl rfl
      exact hset.trans (works_raiseLifecycle _ _ _)

/-- The moves of the host but the teardown. -/
lemma works_apply {m : Move} (htask : ∀ task, m ≠ .advance task) (hopen : m ≠ .teardown) :
    s.Works (s.apply m) := by
  cases m with
  | dispatch event => exact s.works_dispatch event
  | raise source name payload =>
      show s.Works (s.accepted (s.raise source name payload))
      unfold raise
      split
      · exact .refl s
      · exact s.works_dispatch _
  | load id =>
      show s.Works (s.accepted (s.load id))
      rw [load]
      split_ifs
      · exact .refl s
      · split
        · exact .refl s
        · split_ifs
          · exact .refl s
          · exact .of_eq rfl rfl rfl
  | begin id =>
      show s.Works (s.accepted (s.begin id))
      rw [begin]
      split
      · exact .refl s
      · split
        · exact .refl s
        · exact .of_eq rfl rfl rfl
  | complete id outcome payload => exact s.works_complete id outcome payload
  | teardown => exact absurd rfl hopen
  | advance task => exact absurd rfl (htask task)
  | elapse moment => exact .of_eq rfl rfl rfl

/-- What a move does to the ticker, the requests and the list of lanes. -/
inductive Does (s : Session) (m : Move) : Prop
  | works (move : m ≠ .teardown) (resumed : s.resumed m = none) (ticked : s.ticked m = none)
      (works : s.Works (s.apply m))
  | teardown (move : m = .teardown)
  /-- A lane goes on with a delivery and starts the repeat of the action that has run. -/
  | repeats (delivery : Delivery) (resumed : s.resumed m = some delivery)
      (after : ((s.execute delivery.next.action delivery.event).scheduleRepeat delivery.event
        delivery.next).Works (s.apply m))
  /-- A load asks its provider, which is not suppressed. -/
  | asks (load : Load) (mem : load ∈ s.loads) (move : m = .advance (.load load.ticket))
      (answer : load.answer = none)
      (visible : ∃ e, s.tree.entity? load.provider = some e ∧ e.suppressed = false)
      (ticker : (s.apply m).ticker = s.ticker) (lanes : (s.apply m).lanes = s.lanes)
  /-- A timer is due. -/
  | ticks (timer : Timer Refire) (ticked : s.ticked m = some timer) (t : Session)
      (works : s.Works t) (after : s.apply m = { t with ticker := s.ticker.tick timer !s.closed })

/-- Every move is of one of these kinds. -/
lemma does_apply (s : Session) (m : Move) : s.Does m := by
  by_cases hopen : m = .teardown
  · exact .teardown hopen
  by_cases htask : ∃ task, m = .advance task
  · obtain ⟨task, rfl⟩ := htask
    cases task with
    | lane source =>
        obtain ⟨hresumed, hworks⟩ | ⟨delivery, hresumed, hlast⟩ := s.works_advanceLane source
        · exact .works hopen hresumed rfl hworks
        · exact .repeats delivery hresumed hlast
    | load ticket =>
        obtain hworks | ⟨load, hmem, rfl, hanswer, hvisible, hticker, hlanes⟩ :=
          s.works_advanceLoad ticket
        · exact .works hopen rfl rfl hworks
        · exact .asks load hmem rfl hanswer hvisible hticker hlanes
    | timer generation =>
        cases hticked : s.ticked (.advance (.timer generation)) with
        | none =>
            refine .works hopen rfl hticked ?_
            show s.Works (s.advanceTimer generation)
            rw [advanceTimer]
            split
            · exact .refl s
            · rename_i timer htimer
              rw [ticked, htimer] at hticked
              rw [if_neg (by simpa using hticked)]
              exact .refl s
        | some timer =>
            obtain ⟨htimer, hwake⟩ := Option.filter_eq_some_iff.mp hticked
            refine .ticks timer hticked _ (s.works_enqueue timer.label.event.source
              (.refire timer.label.action timer.label.event)) ?_
            show s.advanceTimer generation = _
            simp only [advanceTimer, htimer, if_pos (of_decide_eq_true hwake)]
  · have hnone : s.resumed m = none ∧ s.ticked m = none := by
      cases m with
      | advance task => exact absurd ⟨task, rfl⟩ htask
      | _ => exact ⟨rfl, rfl⟩
    exact .works hopen hnone.1 hnone.2 (works_apply (fun task heq => htask ⟨task, heq⟩) hopen)

/-! ### Timers -/

/-- A repeat is started for an action that has an interval. -/
lemma mem_scheduleRepeat {event : Event} {run : PlannedRun} {timer : Timer Refire}
    (h : timer ∈ (s.scheduleRepeat event run).ticker.timers) :
    timer ∈ s.ticker.timers ∨ timer.label = ⟨run.action, event⟩ ∧ run.interval ≠ none := by
  rw [scheduleRepeat] at h
  split at h
  · exact .inl h
  · exact .inl h
  · rename_i interval _ hinterval
    refine (Ticker.mem_start h).imp_right fun hlabel => ⟨hlabel, ?_⟩
    rw [hinterval]
    simp

lemma scheduleRepeat_kept (s : Session) (event : Event) (run : PlannedRun) :
    (s.scheduleRepeat event run).lanes = s.lanes
      ∧ (s.scheduleRepeat event run).requests = s.requests
      ∧ (s.scheduleRepeat event run).loads = s.loads := by
  rw [scheduleRepeat]
  split <;> exact ⟨rfl, rfl, rfl⟩

/-- **Where timers come from**: a timer goes back to one before the move, or to the action of a
delivery that a lane has just gone on with. -/
lemma timers_apply {m : Move} {timer : Timer Refire} (h : timer ∈ (s.apply m).ticker.timers) :
    (∃ old ∈ s.ticker.timers, old.label = timer.label)
      ∨ ∃ source delivery, (s.lane source).work = some delivery
          ∧ timer.label = ⟨delivery.next.action, delivery.event⟩
          ∧ delivery.next.interval ≠ none := by
  cases s.does_apply m with
  | works move resumed ticked works => exact .inl ⟨timer, works.ticker ▸ h, rfl⟩
  | teardown move =>
      subst move
      refine .inl ⟨timer, ?_, rfl⟩
      change timer ∈ s.teardown.ticker.timers at h
      rw [teardown] at h
      split_ifs at h
      · exact h
      · simp [Ticker.clear] at h
  | repeats delivery resumed after =>
      obtain ⟨source, -, -, hwork, -⟩ := resumed_eq_some_iff.mp resumed
      rw [after.ticker] at h
      obtain hold | ⟨hlabel, hinterval⟩ := mem_scheduleRepeat h
      · exact .inl ⟨timer, (s.works_execute _ _).ticker ▸ hold, rfl⟩
      · exact .inr ⟨source, delivery, hwork, hlabel, hinterval⟩
  | asks load mem move answer visible ticker => exact .inl ⟨timer, ticker ▸ h, rfl⟩
  | ticks due ticked t works after =>
      rw [after] at h
      exact .inl (Ticker.exists_of_mem_tick h)

/-- A move lists no lane twice. -/
lemma keys_apply (h : s.lanes.keys.Nodup) (m : Move) : (s.apply m).lanes.keys.Nodup := by
  cases s.does_apply m with
  | works move resumed ticked works => exact works.keys h
  | teardown move =>
      subst move
      show s.teardown.lanes.keys.Nodup
      rwa [teardown_lanes]
  | repeats delivery resumed after =>
      have hlanes := (scheduleRepeat_kept (s.execute delivery.next.action delivery.event)
        delivery.event delivery.next).1
      exact after.keys (hlanes ▸ (s.works_execute _ _).keys h)
  | asks load mem move answer visible ticker lanes => rwa [lanes]
  | ticks timer ticked t works after =>
      rw [after]
      exact works.keys h

/-- **Where requests come from**: only the move of a load makes one, and only for a provider that is
not suppressed. -/
lemma requests_apply (s : Session) (m : Move) : (s.apply m).requests = s.requests
    ∨ ∃ load ∈ s.loads, m = .advance (.load load.ticket) ∧ load.answer = none
      ∧ ∃ e, s.tree.entity? load.provider = some e ∧ e.suppressed = false := by
  cases s.does_apply m with
  | works move resumed ticked works => exact .inl works.requests
  | teardown move =>
      subst move
      left
      show s.teardown.requests = s.requests
      rw [teardown]
      split_ifs <;> rfl
  | repeats delivery resumed after =>
      have hrequests := (scheduleRepeat_kept (s.execute delivery.next.action delivery.event)
        delivery.event delivery.next).2.1
      exact .inl (after.requests.trans (hrequests.trans (s.works_execute _ _).requests))
  | asks load mem move answer visible => exact .inr ⟨load, mem, move, answer, visible⟩
  | ticks timer ticked t works after =>
      left
      rw [after]
      exact works.requests

/-! ### What was planned stays so -/

/-- A property of runs that whatever is planned has, and that depends on the structure of the tree
only. -/
structure OfPlans (Q : Tree → Event → PlannedRun → Prop) : Prop where
  plan : ∀ {s : Session} {event only steps run}, s.plan event only = some (.steps steps) →
    .run run ∈ steps → Q s.tree event run
  congr : ∀ {t u : Tree} {event run}, t.SameStructure u → Q t event run → Q u event run

/-- All runs of the deliveries under way have a property. -/
def Planned (Q : Tree → Event → PlannedRun → Prop) (s : Session) : Prop :=
  ∀ source delivery, (s.lane source).work = some delivery →
    ∀ run, .run run ∈ PlannedStep.run delivery.next :: delivery.rest → Q s.tree delivery.event run

section Planned

variable {Q : Tree → Event → PlannedRun → Prop}

/-- What is under way after a turn has been planned. -/
lemma OfPlans.turn_work (hQ : OfPlans Q) (h : s.Planned Q) {source : String} {turn : Turn}
    (hturn : s.turn source = some turn) {d : Delivery} (hd : turn.work = some d)
    {run : PlannedRun} (hrun : .run run ∈ PlannedStep.run d.next :: d.rest) :
    Q s.tree d.event run := by
  rw [Session.turn] at hturn
  split at hturn
  · rename_i delivery hwork
    split_ifs at hturn
    cases hturn
    have hrest := List.mem_cons_of_mem (PlannedStep.run delivery.next) (workFrom_mem hd hrun)
    rw [workFrom_event hd]
    exact h source delivery hwork run hrest
  · cases hturn
  · rename_i event queue hwork hqueue
    cases hturn
    rw [deliverTurn_work hd]
    rw [deliverTurn] at hd
    split at hd
    · cases hd
    · cases hd
    · rename_i steps hplan
      have hplanned := hQ.plan hplan (workFrom_mem hd hrun)
      rwa [opened_tree] at hplanned
  · cases hturn
    rw [refireTurn_work] at hd
    cases hd

lemma OfPlans.apply (hQ : OfPlans Q) (h : s.Planned Q) (m : Move) : (s.apply m).Planned Q := by
  have htree := (s.step_apply m).tree
  intro source delivery hw run hrun
  refine hQ.congr htree ?_
  by_cases hm : m = .advance (.lane source)
  · subst hm
    rw [work_apply_lane] at hw
    split_ifs at hw
    cases hturn : s.turn source with
    | none =>
        rw [hturn] at hw
        exact h source delivery hw run hrun
    | some turn =>
        rw [hturn] at hw
        exact hQ.turn_work h hturn hw hrun
  · rw [(s.step_apply m).work source hm] at hw
    exact h source delivery hw run hrun

/-- **What was planned stays so**, along every run. -/
theorem OfPlans.run (hQ : OfPlans Q) (host : Host) (document : Document) (moves : List Move) :
    ((ofDocument host document).run moves).Planned Q := by
  induction moves using List.reverseRecOn with
  | nil => simp [Planned, ofDocument, start, lane]
  | append_singleton moves m ih =>
      rw [run_append]
      exact hQ.apply ih m

end Planned

lemma ofPlans_serves : OfPlans Tree.Serves where
  plan hplan hrun := (plan_serves hplan hrun).1
  congr h hserves := h.serves hserves

/-! ### The invariant -/

/-- What is under way, what repeats and what is to be repeated serves its event. -/
structure Served (s : Session) : Prop where
  work : ∀ source delivery, (s.lane source).work = some delivery →
    ∀ run, .run run ∈ PlannedStep.run delivery.next :: delivery.rest →
      s.tree.Serves delivery.event run
  timer : ∀ timer ∈ s.ticker.timers, s.tree.Repeats timer.label.event timer.label.action
  refire : ∀ source action event, .refire action event ∈ (s.lane source).queue →
    s.tree.Repeats event action

/-- A repetition comes to a lane because its timer ticks. -/
lemma ticked_of_posted {m : Move} {source : String} {action : Nat} {event : Event}
    (h : (source, .refire action event) ∈ s.posted m) :
    ∃ timer, s.ticked m = some timer ∧ timer.label = ⟨action, event⟩ := by
  have hdispatched : ∀ event', (source, Message.refire action event) ∉ s.dispatched event' := by
    intro event' hd
    rw [dispatched] at hd
    split at hd <;> simp at hd
  have hpostsOf : (source, Message.refire action event) ∉ s.postsOf (s.completions m) := by
    intro hp
    obtain ⟨c, -, hc⟩ := List.mem_flatMap.mp hp
    rw [messagesOf] at hc
    split at hc
    · simp at hc
    · split_ifs at hc
      · simp at hc
      · obtain ⟨event', _, heq⟩ := List.mem_map.mp hc
        simp [lifecycleMessage] at heq
  unfold posted at h
  split_ifs at h
  · simp at h
  · split at h
    · exact absurd h (hdispatched _)
    · unfold raised at h
      split at h
      · simp at h
      · exact absurd h (hdispatched _)
    · rw [refired] at h
      split at h
      · simp at h
      · rename_i timer htimer
        split_ifs at h with hwake
        · obtain ⟨-, haction, hevent⟩ : source = _ ∧ action = _ ∧ event = _ := by simpa using h
          exact ⟨timer, ticked_eq_some_iff.mpr ⟨_, rfl, htimer, hwake⟩, by rw [haction, hevent]⟩
        · simp at h
    · exact absurd h hpostsOf

lemma exists_timer_of_posted {m : Move} {source : String} {action : Nat} {event : Event}
    (h : (source, .refire action event) ∈ s.posted m) :
    ∃ timer ∈ s.ticker.timers, timer.label = ⟨action, event⟩ := by
  obtain ⟨timer, hticked, hlabel⟩ := ticked_of_posted h
  exact ⟨timer, mem_of_ticked hticked, hlabel⟩

/-- **What a lane executes** serves an event of its own. -/
lemma Served.completion (h : s.Served) (hs : s.Sourced) {source : String} {turn : Turn}
    (hturn : s.turn source = some turn) {c : Completion} (hc : c ∈ turn.completions) :
    ∃ event run, s.tree.Serves event run ∧ run.action = c.index ∧ event.source = source := by
  rw [Session.turn] at hturn
  split at hturn
  · rename_i delivery hwork
    split_ifs at hturn
    cases hturn
    obtain hc | hc := List.mem_append.mp hc
    · exact ⟨delivery.event, delivery.next, h.work source delivery hwork _ List.mem_cons_self,
        (execution_index hc).symm, hs.work source delivery hwork⟩
    · simp at hc
  · cases hturn
  · cases hturn
    rw [deliverTurn] at hc
    split at hc <;> simp at hc
  · rename_i action event queue hwork hqueue
    cases hturn
    rw [refireTurn] at hc
    split at hc
    · rename_i hplan
      obtain ⟨run, hrun, hindex⟩ := refireEmissions_index hc
      have hserves := (plan_serves hplan hrun).1
      rw [opened_tree] at hserves
      have hmem : Message.refire action event ∈ (s.lane source).queue := by simp [hqueue]
      exact ⟨event, run, hserves, hindex.symm, hs.queue source _ hmem⟩
    · simp at hc

/-- **Every move keeps a session served.** -/
lemma Served.apply (h : s.Served) (m : Move) : (s.apply m).Served := by
  have htree := (s.step_apply m).tree
  have hwork : ∀ source delivery, (s.lane source).work = some delivery →
      ∀ run, .run run ∈ PlannedStep.run delivery.next :: delivery.rest →
        (s.apply m).tree.Serves delivery.event run :=
    fun source delivery hw run hrun => htree.serves (h.work source delivery hw run hrun)
  refine ⟨ofPlans_serves.apply h.work m, fun timer htimer => ?_, fun source action event hmem => ?_⟩
  · obtain ⟨old, hold, hlabel⟩ | ⟨source, delivery, hw, hlabel, hinterval⟩ := timers_apply htimer
    · rw [← hlabel]
      exact htree.repeats (h.timer old hold)
    · rw [hlabel]
      exact ⟨delivery.next, hwork source delivery hw _ List.mem_cons_self, rfl, hinterval⟩
  · obtain hold | hnew := mem_queue_apply hmem
    · exact htree.repeats (h.refire source action event hold)
    · obtain ⟨timer, htimer, hlabel⟩ := exists_timer_of_posted hnew
      have hrepeats := h.timer timer htimer
      rw [hlabel] at hrepeats
      exact htree.repeats hrepeats

lemma served_start (host : Host) (tree : Tree) : (start host tree).Served := by
  constructor <;> simp [start, lane]

/-- **Every session is served.** -/
theorem served_run (h : s.Served) (moves : List Move) : (s.run moves).Served := by
  induction moves generalizing s with
  | nil => exact h
  | cons m moves ih => exact ih (h.apply m)

end Session

end Componentry

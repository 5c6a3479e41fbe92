import Mathlib.Tactic
import Componentry.Proofs.Session.Completion
import Componentry.Proofs.Session.Execution
/-!
# Who writes the state of an entity

The state of an entity is written by the host, which begins and completes it by hand, by the loads
of a provider, and by the executions of an action.  The host and the loads go through `begin?` and
`complete?`, so each of their writes is a step that the lifecycle allows.  An execution does not: it
settles the action whatever state it is in.  As the lifecycle has it an execution is a begin
followed by a complete (`LifecycleState.Executes`), and this is what it amounts to exactly if the
action was not running (`LifecycleState.executes_iff`).

`Session.Writes` says what a move can do to the state of an entity, `Session.writes_apply` is the
case distinction, and `run_writes` the result for runs: only an action that the host has begun by
hand can be running when it is executed, and it is then taken out of `running`.
-/

namespace Componentry

namespace LifecycleState

/-- Executions as the lifecycle has them: each begins, and then completes with its outcome. -/
inductive Executes : LifecycleState → List LifecycleEvent → LifecycleState → Prop
  | nil (state : LifecycleState) : Executes state [] state
  | cons {before begun after final : LifecycleState} {outcome : LifecycleEvent}
      {outcomes : List LifecycleEvent} (begin : before.begin? = .ok begun)
      (complete : begun.complete? outcome = .ok after) (rest : Executes after outcomes final) :
      Executes before (outcome :: outcomes) final

/-- The state in which executions leave an action: that of the last outcome. -/
def afterAll (state : LifecycleState) (outcomes : List LifecycleEvent) : LifecycleState :=
  outcomes.foldl (fun _ outcome => settled outcome) state

@[simp] lemma afterAll_nil (state : LifecycleState) : state.afterAll [] = state := rfl

lemma afterAll_append (state : LifecycleState) (outcomes more : List LifecycleEvent) :
    state.afterAll (outcomes ++ more) = (state.afterAll outcomes).afterAll more :=
  List.foldl_append

lemma begin?_of_ne {state : LifecycleState} (h : state ≠ .running) :
    state.begin? = .ok .running := by
  cases state with
  | running => exact absurd rfl h
  | _ => rfl

/-- What has been executed is not running. -/
lemma afterAll_ne_running (state : LifecycleState) {outcomes : List LifecycleEvent}
    (h : outcomes ≠ []) : state.afterAll outcomes ≠ .running := by
  obtain ⟨front, last, rfl⟩ := List.eq_nil_or_concat outcomes |>.resolve_left h
  rw [List.concat_eq_append, afterAll_append]
  exact Session.settled_ne_running last

/-- **Executions are steps of the lifecycle exactly if the first of them does not meet a running
action.** -/
lemma executes_iff {before after : LifecycleState} {outcomes : List LifecycleEvent} :
    before.Executes outcomes after
      ↔ after = before.afterAll outcomes ∧ (outcomes ≠ [] → before ≠ .running) := by
  constructor
  · intro h
    induction h with
    | nil state => exact ⟨rfl, fun hne => absurd rfl hne⟩
    | cons hbegin hcomplete _ ih =>
        obtain ⟨hidle, rfl⟩ := begin?_eq_ok hbegin
        obtain ⟨-, rfl⟩ := complete?_eq_ok hcomplete
        exact ⟨ih.1, fun _ => hidle⟩
  · rintro ⟨rfl, hidle⟩
    induction outcomes generalizing before with
    | nil => exact .nil before
    | cons outcome rest ih =>
        refine .cons (begin?_of_ne (hidle (by simp))) rfl ?_
        exact ih fun _ => Session.settled_ne_running outcome

end LifecycleState

/-- The outcome that the events of a completion report first. -/
def Completion.outcome? (c : Completion) : Option LifecycleEvent := c.events.head?.map Prod.fst

/-- Whether the host begins the entity at an index by hand. -/
def Move.begins (tree : Tree) (index : Nat) : Move → Bool
  | .begin id => tree.find? id = some index
  | _ => false

namespace Session

/-- The outcomes of the completions of an entity, in order. -/
def outcomesOf (i : Nat) (completions : List Completion) : List LifecycleEvent :=
  (completions.filter fun c => c.index = i).filterMap Completion.outcome?

@[simp] lemma outcomesOf_nil (i : Nat) : outcomesOf i [] = [] := rfl

lemma outcomesOf_append (i : Nat) (completions more : List Completion) :
    outcomesOf i (completions ++ more) = outcomesOf i completions ++ outcomesOf i more := by
  simp [outcomesOf]

/-- The outcomes with which a move executes an action, in order: only lanes execute. -/
def executed (s : Session) (i : Nat) : Move → List LifecycleEvent
  | .advance (.lane source) =>
    if s.closed then [] else outcomesOf i (s.completions (.advance (.lane source)))
  | _ => []

variable {s : Session} {i : Nat}

/-! ### Executions -/

lemma state?_of_tree {t : Session} (h : t.tree = s.tree) (i : Nat) : t.state? i = s.state? i := by
  rw [state?, h, state?]

/-- The state and the outcome of an ending agree. -/
lemma Ending.of_outcome? (id : String) (index : Nat) (result : Except ActionError Effect) :
    ∃ outcome, (⟨index, (Ending.of id result).events⟩ : Completion).outcome? = some outcome
      ∧ (Ending.of id result).state = .settled outcome := by
  cases result with
  | ok effect => exact ⟨.success, rfl, rfl⟩
  | error failure => exact ⟨.failed, rfl, rfl⟩

/-- An execution settles its action, whatever state it is in. -/
lemma state?_execute (s : Session) (index : Nat) (event : Event) (i : Nat) :
    (s.execute index event).state? i
      = (s.state? i).map (·.afterAll (outcomesOf i (s.execution index event).completions)) := by
  cases he : s.tree.entity? index with
  | none =>
      rw [execute, execution, he]
      simp
  | some e =>
      have hexecution : (s.execution index event).completions
          = [⟨index, (s.ending e event).events⟩] := by
        rw [execution, he]
      rw [hexecution]
      by_cases hi : index = i
      · subst hi
        obtain ⟨outcome, hevents, hstate⟩ :=
          Ending.of_outcome? e.id index (s.carryOut (s.verdict e event)).2
        obtain ⟨e', he', -⟩ := (s.emits_carryOut (s.verdict e event)).tree.exists_entity he
        have houtcomes : outcomesOf index [⟨index, (s.ending e event).events⟩] = [outcome] := by
          rw [outcomesOf, List.filter_cons_of_pos (by simp), List.filter_nil]
          simp only [List.filterMap_cons, List.filterMap_nil]
          rw [ending, hevents]
        rw [houtcomes, state?_of_entity? he, state?, execute_tree he, Tree.entity?_modify_self, he']
        simp only [Option.map_some, ending, hstate]
        rfl
      · rw [(spares_execute hi event).state]
        simp [outcomesOf, hi]

/-- The steps of a repetition settle their action one after the other. -/
lemma state?_refireSteps (s : Session) (event : Event) (steps : List PlannedStep) (i : Nat) :
    (steps.foldl (fun s step => s.refireStep event step) s).state? i
      = (s.state? i).map (·.afterAll (outcomesOf i (s.refireEmissions event steps).completions)) := by
  induction steps generalizing s with
  | nil => simp [refireEmissions]
  | cons step rest ih =>
      have hfirst : (s.refireStep event step).state? i
          = (s.state? i).map (·.afterAll (outcomesOf i (s.refireEmission event step).completions)) := by
        cases step with
        | run run => exact s.state?_execute run.action event i
        | skip actionId reason =>
            have hkept := state?_of_tree (s := s)
              (t := s.record event (some actionId) (.skipped reason)) rfl i
            simpa [refireStep, refireEmission] using hkept
      rw [List.foldl_cons, ih, hfirst, Option.map_map]
      congr 1
      funext state
      simp only [Function.comp_apply, refireEmissions, Emission.append, outcomesOf_append,
        LifecycleState.afterAll_append]

lemma scheduleRepeat_tree (s : Session) (event : Event) (run : PlannedRun) :
    (s.scheduleRepeat event run).tree = s.tree := by
  rw [scheduleRepeat]
  split <;> rfl

lemma proceed_tree (s : Session) (source : String) (event : Event) (steps : List PlannedStep) :
    (s.proceed source event steps).tree = s.tree := by
  rw [proceed_eq, endTurn_tree, recordAll]

/-- A repetition settles its action. -/
lemma state?_refire (s : Session) (source : String) (action : Nat) (event : Event) (i : Nat) :
    (s.refire source action event).state? i
      = (s.state? i).map (·.afterAll (outcomesOf i (s.refireTurn action event).completions)) := by
  have hfinished : ∀ t : Session, (t.finishWork source).state? i = t.state? i :=
    fun t => state?_of_tree rfl i
  rw [refire, refireTurn]
  cases s.plan event (some action) with
  | none => simp [hfinished]
  | some plan =>
      cases plan with
      | dropped reason => simp [hfinished]
      | steps steps => exact (hfinished _).trans (s.state?_refireSteps event steps i)

/-- **A lane settles the actions that it executes**, and changes no other state. -/
lemma state?_advanceLane (hc : s.closed = false) (source : String) (i : Nat) :
    (s.advanceLane source).state? i
      = (s.state? i).map (·.afterAll (s.executed i (.advance (.lane source)))) := by
  have hexecuted : s.executed i (.advance (.lane source))
      = outcomesOf i (((s.turn source).map fun turn => turn.completions).getD []) := by
    simp [executed, hc, completions]
  rw [hexecuted, turn, advanceLane]
  cases hw : (s.lane source).work with
  | some delivery =>
      by_cases hwake : delivery.wake ≤ s.clock
      · simp only [if_pos hwake, hc, Bool.false_eq_true, if_false, Option.map_some, Option.getD_some]
        rw [runNext, state?_of_tree ((proceed_tree _ _ _ _).trans (scheduleRepeat_tree _ _ _)),
          state?_execute]
        simp [nextTurn, Emission.append]
      · simp [if_neg hwake, hc]
  | none =>
      cases hq : (s.lane source).queue with
      | nil => simp
      | cons message queue =>
          rw [opened_of_queue hw hq]
          simp only [hc, Bool.false_eq_true, if_false]
          have hopened : (s.setLane source { queue }).state? i = s.state? i := state?_of_tree rfl i
          cases message with
          | deliver event =>
              have hnone : ((s.setLane source { queue }).deliverTurn event).completions = [] := by
                rw [deliverTurn]
                split <;> rfl
              have hspares := spares_deliver (s := s.setLane source { queue }) (p := i) source event
              simp only [take, Option.map_some, Option.getD_some, hnone]
              rw [hspares.state, hopened]
              simp
          | refire action event =>
              simp only [take, Option.map_some, Option.getD_some]
              rw [state?_refire, hopened]

/-! ### Loads -/

lemma state?_dropLoad (s : Session) (ticket i : Nat) : (s.dropLoad ticket).state? i = s.state? i :=
  state?_of_tree rfl i

/-- The first move of a load leaves an entity without a provider alone. -/
lemma state?_beginLoad {e : Entity} (he : s.tree.entity? i = some e)
    (hprovider : e.behaviour.dataProvider? = none) (load : Load) :
    (s.beginLoad load).state? i = s.state? i := by
  rw [beginLoad]
  split
  · exact s.state?_dropLoad _ i
  · rename_i other hother
    split
    · exact s.state?_dropLoad _ i
    · rename_i provider hsome
      split_ifs
      · rw [state?_dropLoad]
        exact state?_of_tree rfl i
      · exact s.state?_dropLoad _ i
      · have hne : load.provider ≠ i := by
          rintro rfl
          obtain rfl : other = e := Option.some.inj (hother.symm.trans he)
          rw [hprovider] at hsome
          cases hsome
        obtain ⟨u, arrival, result, htree, -, -, hask⟩ := exists_ask_eq
          (s.setState load.provider .running) load.ticket provider (s.loadRequest other provider)
        rw [hask]
        calc (u.setAnswer load.ticket arrival result).state? i
            = u.state? i := state?_of_tree rfl i
          _ = (s.setState load.provider .running).state? i := state?_of_tree htree i
          _ = s.state? i := (Spares.modifyEntity s hne _).state

/-- The last move of a load makes no entity run. -/
lemma state?_endLoad_ne_running {e : Entity} (he : s.tree.entity? i = some e)
    (hstate : e.state ≠ .running) (load : Load) (result : LoadResult) :
    (s.endLoad load result).state? i ≠ some .running := by
  have hkept : s.state? i ≠ some .running := by
    rw [state?_of_entity? he, ne_eq, Option.some.injEq]
    exact hstate
  rw [endLoad, state?_dropLoad]
  split_ifs
  · exact hkept
  · by_cases hp : load.provider = i
    · rw [hp, completeLoad_eq he, (spares_raiseLifecycle _ i i _).state, state?, modifyEntity,
        Tree.entity?_modify_self, he]
      simp [loaded_of_not_running hstate, hstate]
    · rw [(completeLoad_spares hp result).state]
      exact hkept

/-- A load makes only an entity with a provider run. -/
lemma state?_advanceLoad_ne_running {e : Entity} (he : s.tree.entity? i = some e)
    (hprovider : e.behaviour.dataProvider? = none) (hstate : e.state ≠ .running) (ticket : Nat) :
    (s.advanceLoad ticket).state? i ≠ some .running := by
  have hkept : s.state? i ≠ some .running := by
    rw [state?_of_entity? he, ne_eq, Option.some.injEq]
    exact hstate
  rw [advanceLoad]
  split
  · exact hkept
  · split
    · rw [state?_beginLoad he hprovider]
      exact hkept
    · split_ifs
      · exact state?_endLoad_ne_running he hstate _ _
      · exact hkept

/-! ### Every move -/

/-- What a move can do to the state of an entity.  All but the last are steps of the lifecycle; an
execution settles its action in whatever state it is. -/
inductive Writes (s : Session) (i : Nat) (m : Move) (t : Session) : Prop
  /-- The state is left alone. -/
  | kept (executed : s.executed i m = []) (state : t.state? i = s.state? i)
  /-- The host begins the entity by hand. -/
  | begun (id : String) (move : m = .begin id) (found : s.tree.find? id = some i)
      (before after : LifecycleState) (state : s.state? i = some before)
      (step : before.begin? = .ok after) (next : t.state? i = some after)
  /-- The host completes the entity by hand. -/
  | completed (id : String) (outcome : LifecycleEvent) (payload : Option Json)
      (move : m = .complete id outcome payload) (found : s.tree.find? id = some i)
      (before after : LifecycleState) (state : s.state? i = some before)
      (step : before.complete? outcome = .ok after) (next : t.state? i = some after)
  /-- A load asks the provider. -/
  | asked (load : Load) (move : m = .advance (.load load.ticket)) (provider : load.provider = i)
      (before after : LifecycleState) (state : s.state? i = some before)
      (step : before.begin? = .ok after) (next : t.state? i = some after)
  /-- The result of a load in flight settles the provider. -/
  | landed (load : Load) (move : m = .advance (.load load.ticket)) (flies : load ∈ s.inFlight i)
      (before after : LifecycleState) (state : s.state? i = some before)
      (outcome : LifecycleEvent) (step : before.complete? outcome = .ok after)
      (next : t.state? i = some after)
  /-- A lane executes the action. -/
  | executed (source : String) (move : m = .advance (.lane source))
      (role : s.tree.roleAt? i = some .action) (executed : s.executed i m ≠ [])
      (before : LifecycleState) (state : s.state? i = some before)
      (next : t.state? i = some (before.afterAll (s.executed i m)))

/-- What releases an entity that is running: the host completes it, a load of it in flight ends, or
a lane executes it. -/
def Releases (s : Session) (i : Nat) (m : Move) : Prop :=
  (∃ id outcome payload, m = .complete id outcome payload ∧ s.tree.find? id = some i)
    ∨ (∃ load ∈ s.inFlight i, m = .advance (.load load.ticket)) ∨ s.executed i m ≠ []

lemma executed_of_ne_lane {m : Move} (hm : ∀ source, m ≠ .advance (.lane source)) :
    s.executed i m = [] := by
  cases m with
  | advance task =>
      cases task with
      | lane source => exact absurd rfl (hm source)
      | _ => rfl
  | _ => rfl

/-- What the loads and the host do to the state of an entity. -/
lemma Handles.writes {m : Move} {t : Session} (h : s.Handles i m t)
    (hm : ∀ source, m ≠ .advance (.lane source)) : s.Writes i m t := by
  have hnone := executed_of_ne_lane (s := s) (i := i) hm
  cases h with
  | spared spares => exact .kept hnone spares.state
  | begun id move found e entity state after =>
      exact .begun id move found _ _ (state?_of_entity? entity) (LifecycleState.begin?_of_ne state)
        (state?_of_entity? after)
  | completed id outcome payload move found e entity state after =>
      refine .completed id outcome payload move found _ _ (state?_of_entity? entity) ?_
        (state?_of_entity? after)
      rw [state]
      rfl
  | asked load arrival result move e entity state after inFlight =>
      have hflies := inFlight.mem_iff.mpr (List.mem_cons_self)
      exact .asked load move (mem_inFlight.mp hflies).2.1 _ _ (state?_of_entity? entity)
        (LifecycleState.begin?_of_ne state) (state?_of_entity? after)
  | landed load e result move takes =>
      by_cases hstate : e.state = .running
      · have hafter := takes.after
        have hcomplete : e.state.complete? (outcomeOf e result).1
            = .ok (.settled (outcomeOf e result).1) := by
          rw [hstate]
          rfl
        refine .landed load move takes.flies _ _ (state?_of_entity? takes.entity) _ hcomplete ?_
        rw [state?_of_entity? hafter]
        simp only [loaded, hcomplete]
      · refine .kept hnone ?_
        rw [state?_of_entity? takes.after, state?_of_entity? takes.entity,
          loaded_of_not_running hstate]
  | dropped load move flies closed entity => exact .kept hnone (by rw [state?, entity, state?])

/-- **Every move** does one of these. -/
theorem writes_apply (h : s.Orderly) {e : Entity} (he : s.tree.entity? i = some e) (m : Move) :
    s.Writes i m (s.apply m) := by
  by_cases hm : ∃ source, m = .advance (.lane source)
  · obtain ⟨source, rfl⟩ := hm
    cases hc : s.closed with
    | true =>
        refine .kept (by simp [executed, hc]) (state?_of_tree ?_ i)
        rw [apply_lane_of_closed hc, dropped_tree]
    | false =>
        have hstate := state?_advanceLane hc source i
        rw [state?_of_entity? he, Option.map_some] at hstate
        by_cases hnone : s.executed i (.advance (.lane source)) = []
        · refine .kept hnone (hstate.trans ?_)
          rw [hnone, state?_of_entity? he, LifecycleState.afterAll_nil]
        · refine .executed source rfl ?_ hnone _ (state?_of_entity? he) hstate
          cases hturn : s.turn source with
          | none => simp [executed, hc, completions, hturn] at hnone
          | some turn =>
              simp only [executed, hc, completions, hturn, Bool.false_eq_true, if_false,
                Option.map_some, Option.getD_some, outcomesOf, List.filterMap_eq_nil_iff,
                not_forall] at hnone
              obtain ⟨c, hmem, -⟩ := hnone
              obtain ⟨hmem, hindex⟩ := List.mem_filter.mp hmem
              have hrole := h.roleAt?_of_mem_completions hc hturn hmem
              rwa [of_decide_eq_true hindex] at hrole
  · have hm' : ∀ source, m ≠ .advance (.lane source) := fun source heq => hm ⟨source, heq⟩
    exact (handles_of_ne_lane h.numbered he hm').writes hm'

/-- A running entity keeps running unless it is released. -/
lemma Writes.running {m : Move} {t : Session} (h : s.Writes i m t)
    (hrunning : s.state? i = some .running) : t.state? i = some .running ∨ s.Releases i m := by
  cases h with
  | kept executed state => exact .inl (state.trans hrunning)
  | begun id move found before after state step next =>
      obtain rfl : before = .running := Option.some.inj (state.symm.trans hrunning)
      cases step
  | completed id outcome payload move found =>
      exact .inr (.inl ⟨id, outcome, payload, move, found⟩)
  | asked load move provider before after state step next =>
      obtain rfl : before = .running := Option.some.inj (state.symm.trans hrunning)
      cases step
  | landed load move flies => exact .inr (.inr (.inl ⟨load, flies, move⟩))
  | executed source move role executed => exact .inr (.inr (.inr executed))

/-- Only the host makes an action run. -/
lemma Writes.ne_running {m : Move} (h : s.Writes i m (s.apply m)) {e : Entity}
    (he : s.tree.entity? i = some e) (hprovider : e.behaviour.dataProvider? = none)
    (hbegins : m.begins s.tree i = false) (hidle : s.state? i ≠ some .running) :
    (s.apply m).state? i ≠ some .running := by
  cases h with
  | kept executed state => rwa [state]
  | begun id move found =>
      subst move
      simp [Move.begins, found] at hbegins
  | completed id outcome payload move found before after state step next =>
      obtain ⟨-, rfl⟩ := LifecycleState.complete?_eq_ok step
      rw [next, ne_eq, Option.some.injEq]
      exact settled_ne_running outcome
  | asked load move provider before after state step next =>
      rw [state?_of_entity? he, ne_eq, Option.some.injEq] at hidle
      subst move
      exact state?_advanceLoad_ne_running he hprovider hidle load.ticket
  | landed load move flies before after state outcome step next =>
      obtain ⟨-, rfl⟩ := LifecycleState.complete?_eq_ok step
      rw [next, ne_eq, Option.some.injEq]
      exact settled_ne_running outcome
  | executed source move role executed before state next =>
      rw [next, ne_eq, Option.some.injEq]
      exact LifecycleState.afterAll_ne_running before executed

/-! ### Runs -/

section Runs

variable {host : Host} {document : Document} {role : Role}

/-- What a move in the middle of a run does to the state of an entity. -/
lemma writes_run (hi : (ofDocument host document).tree.roleAt? i = some role) (moves : List Move)
    (m : Move) : ((ofDocument host document).run moves).Writes i m
      (((ofDocument host document).run moves).apply m) := by
  obtain ⟨e, he, -⟩ := Option.map_eq_some_iff.mp (roleAt?_run hi moves)
  exact writes_apply (orderly_run host document moves) he m

/-- An action that the host has not begun by hand is not running. -/
lemma ne_running_run (hi : (ofDocument host document).tree.roleAt? i = some .action)
    {moves : List Move} (hfree : ∀ m ∈ moves, m.begins (ofDocument host document).tree i = false) :
    ((ofDocument host document).run moves).state? i ≠ some .running := by
  obtain ⟨e, he, hrole⟩ := Option.map_eq_some_iff.mp hi
  have hprovider : e.behaviour.dataProvider? = none := by
    have hfits := document.build_fitting host.catalog host.evaluator host.dispatch i e he
    by_contra hsome
    have hdata := hfits.role_eq (Option.isSome_iff_ne_none.mpr hsome)
    rw [hrole] at hdata
    cases hdata
  induction moves using List.reverseRecOn with
  | nil =>
      have hidle := document.build_idle host.catalog host.evaluator host.dispatch i e he
      rw [run_nil, state?_of_entity? he, hidle.1]
      simp
  | append_singleton moves m ih =>
      have htree := (ofDocument host document).sameStructure_run moves
      obtain ⟨e', he', hframe⟩ := htree.exists_entity he
      have hprovider' : e'.behaviour.dataProvider? = none := by
        have hbehaviour : e'.frame.behaviour = e.frame.behaviour := by rw [hframe]
        rwa [show e'.behaviour = e.behaviour from hbehaviour]
      have hbegins := hfree m (by simp)
      have hsame : m.begins ((ofDocument host document).run moves).tree i
          = m.begins (ofDocument host document).tree i := by
        cases m <;> simp [Move.begins, htree.find?_eq]
      rw [run_append, run_cons, run_nil]
      exact (writes_run hi moves m).ne_running he' hprovider' (hsame.trans hbegins)
        (ih fun m' hm' => hfree m' (List.mem_append_left _ hm'))

/-- A running entity is running until it is released. -/
lemma running_run (hi : (ofDocument host document).tree.roleAt? i = some role)
    (before : List Move) :
    let s := (ofDocument host document).run before
    s.state? i = some .running → ∀ after, (s.run after).state? i = some .running
      ∨ ∃ front m back, after = front ++ m :: back ∧ (s.run front).state? i = some .running
          ∧ (s.run front).Releases i m := by
  intro s hrunning after
  induction after using List.reverseRecOn with
  | nil => exact .inl hrunning
  | append_singleton after m ih =>
      rw [run_append, run_cons, run_nil]
      rcases ih with ih | ⟨front, m', back, rfl, hreleases⟩
      · have hwrites := writes_run hi (before ++ after) m
        rw [run_append] at hwrites
        exact (hwrites.running ih).imp_right fun hreleases =>
          ⟨after, m, [], rfl, ih, hreleases⟩
      · exact .inr ⟨front, m', back ++ [m], by simp, hreleases⟩

end Runs

/-- **Who writes the state of an entity.**  The host and the loads take steps of the lifecycle.  A
lane settles the actions that it executes in whatever state they are, and so takes a begin and a
complete for each execution exactly if the action was not running.  No action runs unless the host
has begun it by hand; and what runs keeps running until the host completes it, a load of it in
flight ends, or a lane executes it. -/
theorem run_writes (host : Host) (document : Document) {i : Nat} {role : Role}
    (hi : (ofDocument host document).tree.roleAt? i = some role) (moves : List Move) (m : Move) :
    let s := (ofDocument host document).run moves
    s.Writes i m (s.apply m)
      ∧ (s.executed i m ≠ [] → ∀ before after, s.state? i = some before →
        (s.apply m).state? i = some after →
          (before.Executes (s.executed i m) after ↔ before ≠ .running))
      ∧ (role = .action → (∀ m ∈ moves, m.begins (ofDocument host document).tree i = false) →
        s.state? i ≠ some .running)
      ∧ (s.state? i = some .running → ∀ after, (s.run after).state? i = some .running
        ∨ ∃ front m back, after = front ++ m :: back ∧ (s.run front).state? i = some .running
            ∧ (s.run front).Releases i m) := by
  intro s
  have hwrites : s.Writes i m (s.apply m) := writes_run hi moves m
  refine ⟨hwrites, fun hexecuted before after hbefore hafter => ?_, fun haction hfree => ?_,
    running_run hi moves⟩
  · have hsettled : after = before.afterAll (s.executed i m) := by
      cases hwrites with
      | executed source move role executed before' state next =>
          obtain rfl : before = before' := Option.some.inj (hbefore.symm.trans state)
          exact Option.some.inj (hafter.symm.trans next)
      | kept executed => exact absurd executed hexecuted
      | begun id move => exact absurd (executed_of_ne_lane (by simp [move])) hexecuted
      | completed id outcome payload move =>
          exact absurd (executed_of_ne_lane (by simp [move])) hexecuted
      | asked load move => exact absurd (executed_of_ne_lane (by simp [move])) hexecuted
      | landed load move => exact absurd (executed_of_ne_lane (by simp [move])) hexecuted
    rw [LifecycleState.executes_iff]
    exact ⟨fun h => h.2 hexecuted, fun h => ⟨hsettled, fun _ => h⟩⟩
  · subst haction
    exact ne_running_run hi hfree

/-- A screen with an action. -/
def button : Document where
  members := [("id", .string "screen"), ("actions",
    .array [.object [("id", .string "act"), ("type", .string "alert"), ("on", .string "success")]])]

/-- The host begins an action, and its execution takes it out of `running`. -/
theorem run_writes_button :
    let opened := ofDocument (Host.answering 0 (.ok .null)) button
    let moves : List Move :=
      [.begin "act", .raise "screen" "success" none, .advance (.lane "screen")]
    let m : Move := .advance (.lane "screen")
    let s := opened.run moves
    opened.tree.roleAt? 1 = some .action
      ∧ (s.state? 1 = some .running ∧ s.executed 1 m = [.success]
        ∧ (s.apply m).state? 1 = some .finished)
      ∧ s.Writes 1 m (s.apply m)
      ∧ ¬ LifecycleState.running.Executes (s.executed 1 m) .finished := by
  intro opened moves m s
  have hi : opened.tree.roleAt? 1 = some .action := by decide +kernel
  have hstates : s.state? 1 = some .running ∧ s.executed 1 m = [.success]
      ∧ (s.apply m).state? 1 = some .finished := by decide +kernel
  obtain ⟨hrunning, hexecuted, hfinished⟩ := hstates
  obtain ⟨hwrites, hlawful, -⟩ := run_writes _ button hi moves m
  refine ⟨hi, ⟨hrunning, hexecuted, hfinished⟩, hwrites, fun h => ?_⟩
  have hne : s.executed 1 m ≠ [] := by simp [hexecuted]
  exact (hlawful hne _ _ hrunning hfinished).mp h rfl

end Session

end Componentry

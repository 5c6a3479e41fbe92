import Mathlib.Tactic
import Componentry.Proofs.Build.WellFormed
import Componentry.Proofs.Session.Blocks
/-!
# What a move does to a data provider

A load is *in flight* from the moment its provider has been asked until the answer is taken or
dropped.  `Session.Handles` says what a move can do to a provider: in most cases nothing
(`Session.Spares`); otherwise the host begins or completes it by hand, a load asks it, or a load in
flight comes to its end.  `Session.handles_apply` is the case distinction for every move of an
orderly session, one whose lanes run actions only.  Every session is orderly
(`Session.orderly_run`), so that the case distinction holds along every run (`Session.handles_run`).

Which completions a move raises events for is read off with `Session.ends`; a closed session raises
none.
-/

namespace Componentry

namespace LifecycleState

lemma begin?_eq_ok {state next : LifecycleState} (h : state.begin? = .ok next) :
    state ≠ .running ∧ next = .running := by
  cases state with
  | running => cases h
  | _ =>
      cases h
      exact ⟨by simp, rfl⟩

lemma complete?_eq_ok {state next : LifecycleState} {outcome : LifecycleEvent}
    (h : state.complete? outcome = .ok next) : state = .running ∧ next = settled outcome := by
  cases state with
  | running =>
      cases h
      exact ⟨rfl, rfl⟩
  | _ => cases h

end LifecycleState

/-- The completion of a load of an entity with a result. -/
def Completion.ofLoad (index : Nat) (e : Entity) (result : LoadResult) : Completion :=
  ⟨index, (Session.outcomeOf e result).1.raised.map (·, some (Session.outcomeOf e result).2)⟩

namespace Session

/-- The state of the entity at an index. -/
def state? (s : Session) (index : Nat) : Option LifecycleState :=
  (s.tree.entity? index).map Entity.state

/-- The payload of the entity at an index, if there is one. -/
def payload? (s : Session) (index : Nat) : Option Json :=
  (s.tree.entity? index).bind Entity.payload

/-- The loads of a provider that have asked it and have not ended. -/
def inFlight (s : Session) (provider : Nat) : List Load :=
  s.loads.filter fun load => load.provider = provider ∧ load.answer.isSome

/-- The completions of an entity that a move raises events for; a closed session raises none. -/
def ends (s : Session) (index : Nat) (m : Move) : List Completion :=
  if s.closed then [] else (s.completions m).filter fun c => c.index = index

lemma ends_eq_nil {s : Session} {m : Move} (h : s.completions m = []) (index : Nat) :
    s.ends index m = [] := by
  rw [ends, h]
  split_ifs <;> rfl

lemma ends_eq_of_completions {s : Session} {m : Move} {c : Completion}
    (h : s.completions m = [c]) (index : Nat) :
    s.ends index m = if s.closed then [] else if c.index = index then [c] else [] := by
  rw [ends, h]
  by_cases hi : c.index = index <;> simp [hi]

lemma state?_of_entity? {s : Session} {index : Nat} {e : Entity}
    (he : s.tree.entity? index = some e) : s.state? index = some e.state := by
  rw [state?, he, Option.map_some]

/-! ### Stretches of work that spare a provider -/

/-- A stretch of work that leaves a provider and its loads in flight alone. -/
structure Spares (s : Session) (provider : Nat) (t : Session) : Prop where
  state : t.state? provider = s.state? provider
  payload : t.payload? provider = s.payload? provider
  inFlight : t.inFlight provider = s.inFlight provider

namespace Spares

variable {s t u : Session} {p : Nat}

lemma trans (h : s.Spares p t) (h' : t.Spares p u) : s.Spares p u :=
  ⟨h'.state.trans h.state, h'.payload.trans h.payload, h'.inFlight.trans h.inFlight⟩

lemma of_entity (hentity : t.tree.entity? p = s.tree.entity? p)
    (hflight : t.inFlight p = s.inFlight p) : s.Spares p t :=
  ⟨by rw [state?, hentity, state?], by rw [payload?, hentity, payload?], hflight⟩

lemma of_eq (htree : t.tree = s.tree) (hloads : t.loads = s.loads) : s.Spares p t :=
  .of_entity (by rw [htree]) (by rw [Session.inFlight, hloads, Session.inFlight])

lemma refl (s : Session) (p : Nat) : s.Spares p s := .of_eq rfl rfl

/-- A change of another entity. -/
lemma modifyEntity (s : Session) {index : Nat} (hne : index ≠ p) (f : Entity → Entity) :
    s.Spares p (s.modifyEntity index f) :=
  .of_entity (s.tree.entity?_modify_of_ne f hne) rfl

/-- A change that merges attributes. -/
lemma merge (s : Session) (p : Nat) (place : Place) (changes : Attributes) :
    s.Spares p { s with tree := s.tree.merge place changes } := by
  cases place with
  | app => exact .of_entity rfl rfl
  | session => exact .of_entity rfl rfl
  | entity index =>
      refine ⟨?_, ?_, rfl⟩
      · simp only [state?, Tree.merge, Tree.entity?_modify]
        split_ifs
        · cases s.tree.entity? p <;> rfl
        · rfl
      · simp only [payload?, Tree.merge, Tree.entity?_modify]
        split_ifs
        · cases s.tree.entity? p <;> rfl
        · rfl

end Spares

section Spares

variable (s : Session) (p : Nat)

lemma spares_notifyUpdate (index : Nat) (animated : Bool) :
    s.Spares p (s.notifyUpdate index animated) := by
  rw [notifyUpdate]
  split
  · split_ifs
    · exact .of_eq rfl rfl
    · exact .refl s p
  · exact .refl s p

lemma spares_perform (effect : Effect) : s.Spares p (s.perform effect).1 := by
  cases effect with
  | merge place changes animated =>
      have hmerge := Spares.merge s p place changes
      cases place with
      | app => exact hmerge
      | session => exact hmerge
      | entity index => exact hmerge.trans (spares_notifyUpdate _ p index animated)
  | none => exact .refl s p
  | load provider => exact .refl s p
  | alert alert => exact .of_eq rfl rfl
  | redraw id => exact .of_eq rfl rfl
  | call call => exact .of_eq rfl rfl

lemma spares_carryOut (verdict : Verdict) : s.Spares p (s.carryOut verdict).1 := by
  have hreports : s.Spares p { s with reports := s.reports ++ verdict.reports } := .of_eq rfl rfl
  unfold carryOut
  dsimp only
  cases verdict.result with
  | error e => exact hreports
  | ok effect =>
      have hperform := hreports.trans (spares_perform _ p effect)
      dsimp only
      split <;> rename_i hp <;> rw [hp] at hperform <;> exact hperform

lemma spares_record (event : Event) (action : Option String) (outcome : Outcome) :
    s.Spares p (s.record event action outcome) := .of_eq rfl rfl

/-- A load that has just been accepted is not in flight. -/
lemma spares_acceptLoad (provider : Nat) : s.Spares p (s.acceptLoad provider) :=
  .of_entity rfl (by simp [inFlight, acceptLoad])

lemma spares_acceptLoad? (provider : Option Nat) : s.Spares p (s.acceptLoad? provider) := by
  cases provider with
  | none => exact .refl s p
  | some provider => exact s.spares_acceptLoad p provider

lemma spares_enqueue (source : String) (message : Message) :
    s.Spares p (s.enqueue source message) :=
  .of_eq (s.enqueue_tree source message) (s.enqueue_loads source message)

lemma spares_raiseLifecycle (index : Nat) (events : List (LifecycleEvent × Option Json)) :
    s.Spares p (s.raiseLifecycle index events) :=
  .of_eq (s.raiseLifecycle_tree index events) (s.raiseLifecycle_loads index events)

variable {s p}

/-- The execution of another entity. -/
lemma spares_execute {index : Nat} (hne : index ≠ p) (event : Event) :
    s.Spares p (s.execute index event) := by
  cases he : s.tree.entity? index with
  | none =>
      rw [execute, he]
      exact .refl s p
  | some e =>
      rw [execute_eq he]
      have hcarried := spares_carryOut s p (s.verdict e event)
      have hsettled := hcarried.trans
        (.modifyEntity _ hne fun e' => { e' with state := (s.ending e event).state })
      have hrecorded := hsettled.trans
        (spares_record _ p event (some e.id) (s.ending e event).outcome)
      exact (hrecorded.trans (spares_acceptLoad? _ p _)).trans (spares_raiseLifecycle _ p _ _)

lemma spares_scheduleRepeat (event : Event) (run : PlannedRun) :
    s.Spares p (s.scheduleRepeat event run) := by
  rw [scheduleRepeat]
  split <;> exact .of_eq rfl rfl

lemma spares_proceed (source : String) (event : Event) (steps : List PlannedStep) :
    s.Spares p (s.proceed source event steps) := by
  rw [proceed_eq]
  exact .of_eq (by rw [endTurn_tree, recordAll]) (by rw [endTurn_loads, recordAll])

/-- Going on with a delivery whose next action is another entity. -/
lemma spares_runNext {delivery : Delivery} (hne : delivery.next.action ≠ p) (source : String) :
    s.Spares p (s.runNext source delivery) :=
  ((spares_execute hne delivery.event).trans (spares_scheduleRepeat _ _)).trans
    (spares_proceed source _ _)

lemma spares_finishWork (source : String) : s.Spares p (s.finishWork source) := .of_eq rfl rfl

lemma spares_deliver (source : String) (event : Event) : s.Spares p (s.deliver source event) := by
  rw [deliver]
  split
  · exact spares_finishWork source
  · exact (spares_record s p _ _ _).trans (spares_finishWork source)
  · exact (spares_record s p _ _ _).trans (spares_proceed source event _)

/-- The steps of a repetition that run other entities. -/
lemma spares_refireSteps {steps : List PlannedStep}
    (hne : ∀ run, .run run ∈ steps → run.action ≠ p) (event : Event) :
    s.Spares p (steps.foldl (fun s step => s.refireStep event step) s) := by
  induction steps generalizing s with
  | nil => exact .refl s p
  | cons step rest ih =>
      have hfirst : s.Spares p (s.refireStep event step) := by
        cases step with
        | run run => exact spares_execute (hne run List.mem_cons_self) event
        | skip actionId reason => exact .of_eq rfl rfl
      exact hfirst.trans (ih fun run hrun => hne run (List.mem_cons_of_mem _ hrun))

/-- A planned action is bound to the event. -/
lemma exists_mem_boundActions {event : Event} {only : Option Nat} {steps : List PlannedStep}
    (h : s.plan event only = some (.steps steps)) :
    ∃ index, ∀ run, .run run ∈ steps → run.action ∈ s.tree.boundActions index event.name := by
  simp only [plan, Option.bind_eq_bind, Option.bind_eq_some_iff] at h
  obtain ⟨index, -, source, -, h⟩ := h
  refine ⟨index, fun run hrun => ?_⟩
  split at h
  · cases h
  · cases h
    obtain ⟨action, ha, hstep⟩ := List.mem_filterMap.mp hrun
    obtain ⟨e, -, hplan⟩ := Option.map_eq_some_iff.mp hstep
    split at hplan
    · cases hplan
    · cases hplan
      exact List.mem_of_mem_filter ha

end Spares

/-! ### Orderly sessions -/

/-- A session whose loads are numbered and whose lanes run actions only. -/
structure Orderly (s : Session) : Prop where
  numbered : s.Numbered
  /-- What is bound to an event is an action. -/
  bound : ∀ owner event, ∀ action ∈ s.tree.boundActions owner event,
    s.tree.roleAt? action = some .action
  /-- What runs next on a lane is an action. -/
  next : s.closed = false → ∀ source delivery, (s.lane source).work = some delivery →
    s.tree.roleAt? delivery.next.action = some .action

/-- Every session is orderly. -/
lemma orderly_run (host : Host) (document : Document) (moves : List Move) :
    ((ofDocument host document).run moves).Orderly := by
  have hbuilt := document.build_built host.catalog host.evaluator host.dispatch
  have htree := (ofDocument host document).sameStructure_run moves
  have hbound : ∀ owner event,
      ∀ action ∈ ((ofDocument host document).run moves).tree.boundActions owner event,
        ((ofDocument host document).run moves).tree.roleAt? action = some .action := by
    intro owner event action ha
    rw [htree.boundActions_eq] at ha
    rw [htree.roleAt?_eq]
    exact hbuilt.linked.roleAt?_of_mem_boundActions ha
  refine ⟨numbered_run (numbered_start _ _) moves, hbound, fun hopen source delivery hwork => ?_⟩
  have hmoves : (.teardown : Move) ∉ moves := by
    rw [closed_run] at hopen
    simpa [ofDocument, start] using hopen
  have hstart : ∃ blocks part, (ofDocument host document).tree.InBlocks
      ((ofDocument host document).lane source) [] [] blocks part :=
    ⟨[], [], rfl, rfl, by simp, rfl⟩
  obtain ⟨blocks, part, hin⟩ := inBlocks_run (.refl _) (sound_ofDocument host document)
    (sourced_start _ _) hstart rfl hmoves
  have hpart := hin.part
  rw [hwork] at hpart
  obtain ⟨index, done, todo, reports, -, hactions, -, hplanned⟩ := hpart
  obtain ⟨action, rest, hplans, -, rfl⟩ := List.forall₂_cons_right_iff.mp hplanned
  have hmem : action ∈ (ofDocument host document).tree.boundActions index delivery.event.name := by
    rw [hactions]
    simp
  rw [← htree.boundActions_eq] at hmem
  rw [hplans.1]
  exact hbound index _ action hmem

/-! ### Lanes -/

section Lanes

variable {s : Session} {p : Nat}

lemma execution_index {index : Nat} {event : Event} {c : Completion}
    (hc : c ∈ (s.execution index event).completions) : c.index = index := by
  rw [execution] at hc
  split at hc
  · simp at hc
  · rw [List.mem_singleton.mp hc]

lemma refireEmissions_index {event : Event} {steps : List PlannedStep} {c : Completion}
    (hc : c ∈ (s.refireEmissions event steps).completions) :
    ∃ run, .run run ∈ steps ∧ c.index = run.action := by
  induction steps generalizing s with
  | nil => simp [refireEmissions] at hc
  | cons step rest ih =>
      obtain hc | hc := List.mem_append.mp hc
      · cases step with
        | run run => exact ⟨run, List.mem_cons_self, execution_index hc⟩
        | skip actionId reason => simp [refireEmission] at hc
      · obtain ⟨run, hrun, hindex⟩ := ih hc
        exact ⟨run, List.mem_cons_of_mem _ hrun, hindex⟩

/-- A lane ends actions only. -/
lemma Orderly.roleAt?_of_mem_completions (h : s.Orderly) (hc : s.closed = false) {source : String}
    {turn : Turn} (hturn : s.turn source = some turn) {c : Completion}
    (hmem : c ∈ turn.completions) : s.tree.roleAt? c.index = some .action := by
  rw [Session.turn] at hturn
  split at hturn
  · rename_i delivery hwork
    split_ifs at hturn
    cases hturn
    obtain hmem | hmem := List.mem_append.mp hmem
    · rw [execution_index hmem]
      exact h.next hc source delivery hwork
    · simp at hmem
  · cases hturn
  · cases hturn
    rw [deliverTurn] at hmem
    split at hmem <;> simp at hmem
  · cases hturn
    rw [refireTurn] at hmem
    split at hmem
    · rename_i hplan
      obtain ⟨index, hbound⟩ := exists_mem_boundActions hplan
      obtain ⟨run, hrun, hindex⟩ := refireEmissions_index hmem
      rw [hindex]
      have ha := hbound run hrun
      rw [opened_tree] at ha
      exact h.bound index _ _ ha
    · simp at hmem

/-- A lane spares every entity that is no action. -/
lemma Orderly.spares_advanceLane (h : s.Orderly) (hp : s.tree.roleAt? p = some .dataProvider)
    (source : String) : s.Spares p (s.advanceLane source) := by
  have hne : ∀ action, s.tree.roleAt? action = some .action → action ≠ p := by
    rintro action ha rfl
    rw [hp] at ha
    cases ha
  rw [advanceLane]
  cases hwork : (s.lane source).work with
  | some delivery =>
      dsimp only
      split_ifs with hclosed hwake
      · exact spares_finishWork source
      · have hopen : s.closed = false := by simpa using hclosed
        exact spares_runNext (hne _ (h.next hopen source delivery hwork)) source
      · exact .refl s p
  | none =>
      cases hqueue : (s.lane source).queue with
      | nil => exact .refl s p
      | cons message queue =>
          have htaken : s.Spares p (s.setLane source { queue }) := .of_eq rfl rfl
          dsimp only
          split_ifs
          · exact htaken.trans (.of_eq rfl rfl)
          · refine htaken.trans ?_
            cases message with
            | deliver event => exact spares_deliver source event
            | refire action event =>
                rw [take, refire]
                split
                · rename_i steps hplan
                  obtain ⟨index, hbound⟩ := exists_mem_boundActions hplan
                  have hother : ∀ run, PlannedStep.run run ∈ steps → run.action ≠ p :=
                    fun run hrun => hne _ (h.bound index _ _ (hbound run hrun))
                  exact (spares_refireSteps hother event).trans (spares_finishWork source)
                · exact spares_finishWork source

end Lanes

/-! ### Loads -/

section Loads

variable {s : Session} {p : Nat}

/-- A load stands among the others, which bear other tickets. -/
lemma Numbered.exists_split (h : s.Numbered) {load : Load} (hl : load ∈ s.loads) :
    ∃ front back, s.loads = front ++ load :: back
      ∧ (∀ other ∈ front, other.ticket ≠ load.ticket)
      ∧ ∀ other ∈ back, other.ticket ≠ load.ticket := by
  obtain ⟨front, back, hsplit⟩ := List.append_of_mem hl
  have hnodup := h.nodup
  rw [hsplit, List.map_append, List.map_cons, List.nodup_append] at hnodup
  obtain ⟨-, hback, hdisjoint⟩ := hnodup
  refine ⟨front, back, hsplit, fun other ho => ?_, fun other ho heq => ?_⟩
  · exact hdisjoint _ (List.mem_map_of_mem ho) _ List.mem_cons_self
  · exact (List.nodup_cons.mp hback).1 (heq ▸ List.mem_map_of_mem ho)

lemma loads_dropLoad {load : Load} {front back : List Load}
    (hsplit : s.loads = front ++ load :: back)
    (hfront : ∀ other ∈ front, other.ticket ≠ load.ticket)
    (hback : ∀ other ∈ back, other.ticket ≠ load.ticket) :
    (s.dropLoad load.ticket).loads = front ++ back := by
  show s.loads.filter (fun other => other.ticket ≠ load.ticket) = _
  rw [hsplit, List.filter_append, List.filter_cons_of_neg (by simp),
    List.filter_eq_self.mpr (by simpa using hfront), List.filter_eq_self.mpr (by simpa using hback)]

lemma loads_setAnswer {load : Load} {front back : List Load}
    (hsplit : s.loads = front ++ load :: back)
    (hfront : ∀ other ∈ front, other.ticket ≠ load.ticket)
    (hback : ∀ other ∈ back, other.ticket ≠ load.ticket) (arrival : Nat) (result : LoadResult) :
    (s.setAnswer load.ticket arrival result).loads
      = front ++ { load with answer := some (arrival, result) } :: back := by
  have hsame : ∀ others : List Load, (∀ other ∈ others, other.ticket ≠ load.ticket) →
      others.map (fun other => if other.ticket = load.ticket
        then { other with answer := some (arrival, result) } else other) = others := by
    intro others hothers
    refine (List.map_congr_left fun other ho => ?_).trans (List.map_id _)
    rw [if_neg (hothers other ho), id]
  rw [setAnswer, hsplit]
  simp only [List.map_append, List.map_cons, hsame front hfront, hsame back hback, if_true]

lemma Numbered.find?_eq (h : s.Numbered) {load : Load} (hl : load ∈ s.loads) :
    (s.loads.find? fun other => other.ticket = load.ticket) = some load := by
  obtain ⟨front, back, hsplit, hfront, -⟩ := h.exists_split hl
  rw [hsplit, List.find?_append, List.find?_eq_none.mpr (by simpa using hfront)]
  simp

lemma mem_inFlight {load : Load} :
    load ∈ s.inFlight p ↔ load ∈ s.loads ∧ load.provider = p ∧ load.answer.isSome := by
  simp [inFlight]

/-- A load that is not in flight ends. -/
lemma Numbered.inFlight_dropLoad_of_not_mem (h : s.Numbered) {load : Load} (hl : load ∈ s.loads)
    (hp : load ∉ s.inFlight p) : (s.dropLoad load.ticket).inFlight p = s.inFlight p := by
  obtain ⟨front, back, hsplit, hfront, hback⟩ := h.exists_split hl
  have hflies : ¬ (load.provider = p ∧ load.answer.isSome) := fun hf =>
    hp (mem_inFlight.mpr ⟨hl, hf⟩)
  rw [inFlight, inFlight, loads_dropLoad hsplit hfront hback, hsplit, List.filter_append,
    List.filter_append, List.filter_cons_of_neg (by simpa using hflies)]

/-- A load in flight ends. -/
lemma Numbered.inFlight_dropLoad_perm (h : s.Numbered) {load : Load} (hp : load ∈ s.inFlight p) :
    (s.inFlight p).Perm (load :: (s.dropLoad load.ticket).inFlight p) := by
  obtain ⟨hl, hflies⟩ := mem_inFlight.mp hp
  obtain ⟨front, back, hsplit, hfront, hback⟩ := h.exists_split hl
  rw [inFlight, inFlight, loads_dropLoad hsplit hfront hback, hsplit, List.filter_append,
    List.filter_append, List.filter_cons_of_pos (by simpa using hflies)]
  exact List.perm_middle

/-- A load of another provider asks it. -/
lemma Numbered.inFlight_setAnswer_of_ne (h : s.Numbered) {load : Load} (hl : load ∈ s.loads)
    (hp : load.provider ≠ p) (arrival : Nat) (result : LoadResult) :
    (s.setAnswer load.ticket arrival result).inFlight p = s.inFlight p := by
  obtain ⟨front, back, hsplit, hfront, hback⟩ := h.exists_split hl
  rw [inFlight, inFlight, loads_setAnswer hsplit hfront hback, hsplit, List.filter_append,
    List.filter_append, List.filter_cons_of_neg (by simp [hp]),
    List.filter_cons_of_neg (by simp [hp])]

/-- A load asks its provider. -/
lemma Numbered.inFlight_setAnswer_perm (h : s.Numbered) {load : Load} (hl : load ∈ s.loads)
    (hp : load.provider = p) (ha : load.answer = none) (arrival : Nat) (result : LoadResult) :
    ((s.setAnswer load.ticket arrival result).inFlight p).Perm
      ({ load with answer := some (arrival, result) } :: s.inFlight p) := by
  obtain ⟨front, back, hsplit, hfront, hback⟩ := h.exists_split hl
  rw [inFlight, inFlight, loads_setAnswer hsplit hfront hback, hsplit, List.filter_append,
    List.filter_append, List.filter_cons_of_pos (by simp [hp]),
    List.filter_cons_of_neg (by simp [ha])]
  exact List.perm_middle

end Loads

/-! ### What can happen -/

/-- An open session takes the result of a load in flight, whatever state its provider is in: the
events of the result are raised, a success leaves its payload, and a running provider settles. -/
structure Takes (s : Session) (p : Nat) (load : Load) (e : Entity) (result : LoadResult)
    (t : Session) : Prop where
  isOpen : s.closed = false
  flies : load ∈ s.inFlight p
  answer : ∃ arrival ≤ s.clock, load.answer = some (arrival, result)
  entity : s.tree.entity? p = some e
  after : t.tree.entity? p = some (loaded e result)
  inFlight : (s.inFlight p).Perm (load :: t.inFlight p)
  gone : ∀ other ∈ t.loads, other.ticket ≠ load.ticket
  completions : s.completions (.advance (.load load.ticket)) = [Completion.ofLoad p e result]

lemma Takes.ends {s t : Session} {p : Nat} {load : Load} {e : Entity} {result : LoadResult}
    (h : s.Takes p load e result t) :
    s.ends p (.advance (.load load.ticket)) = [Completion.ofLoad p e result] := by
  rw [ends_eq_of_completions h.completions, if_neg (by simp [h.isOpen])]
  exact if_pos rfl

/-- What a move can do to a provider. -/
inductive Handles (s : Session) (p : Nat) (m : Move) (t : Session) : Prop
  /-- The provider and its loads in flight are left alone. -/
  | spared (spares : s.Spares p t) (ends : s.ends p m = [])
  /-- The host begins the provider. -/
  | begun (id : String) (move : m = .begin id) (found : s.tree.find? id = some p) (e : Entity)
      (entity : s.tree.entity? p = some e) (state : e.state ≠ .running)
      (after : t.tree.entity? p = some { e with state := .running })
      (inFlight : t.inFlight p = s.inFlight p) (ends : s.ends p m = [])
  /-- The host completes the provider. -/
  | completed (id : String) (outcome : LifecycleEvent) (payload : Option Json)
      (move : m = .complete id outcome payload) (found : s.tree.find? id = some p) (e : Entity)
      (entity : s.tree.entity? p = some e) (state : e.state = .running)
      (after : t.tree.entity? p = some { e with state := .settled outcome })
      (inFlight : t.inFlight p = s.inFlight p)
      (ends : s.ends p m = if s.closed then [] else [⟨p, outcome.raised.map (·, payload)⟩])
  /-- A load asks the provider, which is running from now on. -/
  | asked (load : Load) (arrival : Nat) (result : LoadResult)
      (move : m = .advance (.load load.ticket)) (e : Entity)
      (entity : s.tree.entity? p = some e) (state : e.state ≠ .running)
      (after : t.tree.entity? p = some { e with state := .running })
      (inFlight : (t.inFlight p).Perm
        ({ load with answer := some (arrival, result) } :: s.inFlight p))
      (ends : s.ends p m = [])
  /-- The result of a load in flight is taken. -/
  | landed (load : Load) (e : Entity) (result : LoadResult)
      (move : m = .advance (.load load.ticket)) (takes : s.Takes p load e result t)
  /-- The answer to a load in flight comes to a closed session. -/
  | dropped (load : Load) (move : m = .advance (.load load.ticket)) (flies : load ∈ s.inFlight p)
      (closed : s.closed = true) (entity : t.tree.entity? p = s.tree.entity? p)
      (inFlight : (s.inFlight p).Perm (load :: t.inFlight p)) (ends : s.ends p m = [])

section Handles

variable {s : Session} {p : Nat}


lemma handles_refl {m : Move} (h : s.completions m = []) : s.Handles p m s :=
  .spared (.refl s p) (ends_eq_nil h p)

lemma addressed_eq_ok {id : String} {index : Nat} {e : Entity}
    (h : s.addressed id = .ok (index, e)) :
    s.tree.find? id = some index ∧ s.tree.entity? index = some e := by
  rw [addressed] at h
  split at h
  · cases h
  · rename_i found hfound
    split at h
    · cases h
    · rename_i e' he
      cases h
      exact ⟨hfound, he⟩

lemma handles_dispatch (event : Event) {m : Move} (hm : s.completions m = []) :
    s.Handles p m (s.accepted (s.dispatch event)) := by
  rw [dispatch]
  split_ifs
  · exact handles_refl hm
  · exact handles_refl hm
  · exact handles_refl hm
  · exact .spared (s.spares_enqueue p _ _) (ends_eq_nil hm p)

lemma handles_raise (source name : String) (payload : Option Json) :
    s.Handles p (.raise source name payload) (s.accepted (s.raise source name payload)) := by
  unfold raise
  split
  · exact handles_refl rfl
  · exact handles_dispatch _ rfl

lemma handles_hostLoad (id : String) : s.Handles p (.load id) (s.accepted (s.load id)) := by
  rw [load]
  split_ifs
  · exact handles_refl rfl
  · split
    · exact handles_refl rfl
    · split_ifs
      · exact handles_refl rfl
      · exact .spared (s.spares_acceptLoad p _) (ends_eq_nil rfl p)

lemma handles_begin (id : String) : s.Handles p (.begin id) (s.accepted (s.begin id)) := by
  rw [begin]
  cases ha : s.addressed id with
  | error refusal => exact handles_refl rfl
  | ok found =>
      obtain ⟨index, e⟩ := found
      obtain ⟨hfind, he⟩ := addressed_eq_ok ha
      dsimp only
      cases hb : e.state.begin? with
      | error transition => exact handles_refl rfl
      | ok state =>
          obtain ⟨hstate, rfl⟩ := LifecycleState.begin?_eq_ok hb
          by_cases hi : index = p
          · subst hi
            refine .begun id rfl hfind e he hstate ?_ rfl (ends_eq_nil rfl _)
            show (s.tree.modify index _).entity? index = _
            rw [Tree.entity?_modify_self, he, Option.map_some]
          · exact .spared (.modifyEntity s hi _) (ends_eq_nil rfl p)

/-- The host completes an entity that is running. -/
lemma handles_completed {id : String} {index : Nat} {e : Entity}
    (hfind : s.tree.find? id = some index) (he : s.tree.entity? index = some e)
    (hstate : e.state = .running) {outcome : LifecycleEvent} {payload : Option Json}
    (hcompletions : s.completions (.complete id outcome payload)
      = [⟨index, outcome.raised.map (·, payload)⟩]) :
    s.Handles p (.complete id outcome payload)
      ((s.setState index (.settled outcome)).raiseLifecycle index
        (outcome.raised.map (·, payload))) := by
  have hends := ends_eq_of_completions hcompletions p
  by_cases hi : index = p
  · subst hi
    rw [if_pos rfl] at hends
    refine .completed id outcome payload rfl hfind e he hstate ?_ ?_ hends
    · rw [raiseLifecycle_tree]
      show (s.tree.modify index _).entity? index = _
      rw [Tree.entity?_modify_self, he, Option.map_some]
    · exact (spares_raiseLifecycle _ index index _).inFlight
  · rw [if_neg hi] at hends
    refine .spared ?_ (by rw [hends]; split_ifs <;> rfl)
    exact (Spares.modifyEntity s hi _).trans (spares_raiseLifecycle _ p index _)

lemma handles_complete (id : String) (outcome : LifecycleEvent) (payload : Option Json) :
    s.Handles p (.complete id outcome payload) (s.accepted (s.complete id outcome payload)) := by
  rw [complete]
  cases ha : s.addressed id with
  | error refusal => exact handles_refl (by simp only [completions, ha])
  | ok found =>
      obtain ⟨index, e⟩ := found
      obtain ⟨hfind, he⟩ := addressed_eq_ok ha
      dsimp only
      cases hb : e.state.complete? outcome with
      | error transition => exact handles_refl (by simp only [completions, ha, hb])
      | ok state =>
          obtain ⟨hstate, rfl⟩ := LifecycleState.complete?_eq_ok hb
          exact handles_completed hfind he hstate (by simp only [completions, ha, hb])

/-- Asking a provider notes the answer of the load, and what the transport is asked. -/
lemma exists_ask_eq (s : Session) (ticket : Nat) (provider : DataProvider) (request : DataRequest) :
    ∃ (u : Session) (arrival : Nat) (result : LoadResult), u.tree = s.tree ∧ u.loads = s.loads
      ∧ u.tickets = s.tickets
      ∧ s.ask ticket provider request = u.setAnswer ticket arrival result := by
  rw [ask]
  split
  · exact ⟨s, _, _, rfl, rfl, rfl, rfl⟩
  · rename_i request _
    exact ⟨{ s with requests := s.requests ++ [request] }, _, _, rfl, rfl, rfl, rfl⟩

lemma handles_asks (hn : s.Numbered) {load : Load} (hl : load ∈ s.loads) (ha : load.answer = none)
    {e : Entity} (he : s.tree.entity? load.provider = some e) (hstate : e.state ≠ .running)
    (provider : DataProvider) (request : DataRequest)
    (hends : s.ends p (.advance (.load load.ticket)) = []) :
    s.Handles p (.advance (.load load.ticket))
      ((s.setState load.provider .running).ask load.ticket provider request) := by
  obtain ⟨u, arrival, result, htree, hloads, htickets, hask⟩ :=
    exists_ask_eq (s.setState load.provider .running) load.ticket provider request
  have hnu : u.Numbered := hn.congr hloads htickets
  have hlu : load ∈ u.loads := hloads ▸ hl
  have hflight : u.inFlight p = s.inFlight p := by
    rw [inFlight, hloads]
    rfl
  have hentity : ∀ i, ((u.setAnswer load.ticket arrival result).tree).entity? i
      = (s.tree.modify load.provider fun e => { e with state := .running }).entity? i := fun i => by
    show u.tree.entity? i = _
    rw [htree]
    rfl
  rw [hask]
  by_cases hp : load.provider = p
  · subst hp
    refine .asked load arrival result rfl e he hstate ?_ ?_ hends
    · rw [hentity, Tree.entity?_modify_self, he, Option.map_some]
    · have hperm := hnu.inFlight_setAnswer_perm hlu rfl ha arrival result
      rwa [hflight] at hperm
  · refine .spared (.of_entity ?_ ?_) hends
    · rw [hentity, Tree.entity?_modify_of_ne _ _ hp]
    · rw [hnu.inFlight_setAnswer_of_ne hlu hp, hflight]

/-- The first move of a load. -/
lemma handles_beginLoad (hn : s.Numbered) {load : Load} (hl : load ∈ s.loads)
    (ha : load.answer = none) (hends : s.ends p (.advance (.load load.ticket)) = []) :
    s.Handles p (.advance (.load load.ticket)) (s.beginLoad load) := by
  have hflies : load ∉ s.inFlight p := by simp [mem_inFlight, ha]
  have hdrop : s.Handles p (.advance (.load load.ticket)) (s.dropLoad load.ticket) :=
    .spared (.of_entity rfl (hn.inFlight_dropLoad_of_not_mem hl hflies)) hends
  rw [beginLoad]
  split
  · exact hdrop
  · rename_i e he
    split
    · exact hdrop
    · rename_i provider hprovider
      split_ifs with hsuppressed hstate
      · have hrecorded := spares_record s p (loadEvent e.id) none (.skipped .sourceSuppressed)
        have hdropped : (s.record (loadEvent e.id) none (.skipped .sourceSuppressed)).Spares p
            ((s.record (loadEvent e.id) none (.skipped .sourceSuppressed)).dropLoad load.ticket) :=
          .of_entity rfl
            ((hn.congr rfl rfl).inFlight_dropLoad_of_not_mem hl hflies)
        exact .spared (hrecorded.trans hdropped) hends
      · exact hdrop
      · exact handles_asks hn hl ha he hstate provider _ hends

/-- Taking the result of a load changes the one entity and raises events. -/
lemma completeLoad_eq {index : Nat} {e : Entity} (he : s.tree.entity? index = some e)
    (result : LoadResult) :
    s.completeLoad index result
      = (s.modifyEntity index fun e => loaded e result).raiseLifecycle index
          (Completion.ofLoad index e result).events := by
  rw [completeLoad]
  rw [he]
  rfl

lemma completeLoad_spares {index : Nat} (hne : index ≠ p) (result : LoadResult) :
    s.Spares p (s.completeLoad index result) := by
  cases he : s.tree.entity? index with
  | none =>
      rw [completeLoad, he]
      exact .refl s p
  | some e =>
      rw [completeLoad_eq he]
      exact (Spares.modifyEntity s hne _).trans (spares_raiseLifecycle _ p index _)

@[simp] lemma completeLoad_loads (index : Nat) (result : LoadResult) :
    (s.completeLoad index result).loads = s.loads := by
  cases he : s.tree.entity? index with
  | none => rw [completeLoad, he]
  | some e => rw [completeLoad_eq he, raiseLifecycle_loads, modifyEntity]

/-- The completions of the last move of a load. -/
lemma completions_of_arrived (hn : s.Numbered) {load : Load} (hl : load ∈ s.loads) {arrival : Nat}
    {result : LoadResult} (ha : load.answer = some (arrival, result))
    (harrived : arrival ≤ s.clock) :
    s.completions (.advance (.load load.ticket)) = s.loadCompletion load.provider result := by
  simp only [completions, hn.find?_eq hl, ha, if_pos harrived]

/-- The loads after the last move of a load do not depend on its result. -/
lemma endLoad_loads (load : Load) (result : LoadResult) :
    (s.endLoad load result).loads = (s.dropLoad load.ticket).loads := by
  rw [endLoad, dropLoad, dropLoad]
  split_ifs <;> simp [finishOne]

lemma inFlight_endLoad (load : Load) (result : LoadResult) (p : Nat) :
    (s.endLoad load result).inFlight p = (s.dropLoad load.ticket).inFlight p := by
  rw [inFlight, endLoad_loads, inFlight]

/-- In an open session the last move of a load takes its result. -/
lemma takes_endLoad (hn : s.Numbered) (hopen : s.closed = false) {e : Entity}
    (he : s.tree.entity? p = some e) {load : Load} (hl : load ∈ s.inFlight p) {arrival : Nat}
    {result : LoadResult} (ha : load.answer = some (arrival, result))
    (harrived : arrival ≤ s.clock) : s.Takes p load e result (s.endLoad load result) := by
  obtain ⟨hmem, rfl, -⟩ := mem_inFlight.mp hl
  refine ⟨hopen, hl, ⟨arrival, harrived, ha⟩, he, ?_, ?_, fun other ho => ?_, ?_⟩
  · have htree : (s.endLoad load result).tree
        = s.tree.modify load.provider fun e => loaded e result := by
      rw [endLoad, if_neg (by simp [hopen]), completeLoad_eq he]
      exact raiseLifecycle_tree _ _ _
    rw [htree, Tree.entity?_modify_self, he, Option.map_some]
  · rw [inFlight_endLoad]
    exact hn.inFlight_dropLoad_perm hl
  · rw [endLoad_loads] at ho
    exact of_decide_eq_true (List.mem_filter.mp ho).2
  · have hcompletion : s.loadCompletion load.provider result
        = [Completion.ofLoad load.provider e result] := by
      rw [loadCompletion, he]
      rfl
    rw [completions_of_arrived hn hmem ha harrived, hcompletion]

/-- The last move of a load. -/
lemma handles_endLoad (hn : s.Numbered) {e : Entity} (he : s.tree.entity? p = some e) {load : Load}
    (hl : load ∈ s.loads) {arrival : Nat} {result : LoadResult}
    (ha : load.answer = some (arrival, result)) (harrived : arrival ≤ s.clock) :
    s.Handles p (.advance (.load load.ticket)) (s.endLoad load result) := by
  by_cases hp : load.provider = p
  · have hflies : load ∈ s.inFlight p := by simp [mem_inFlight, hl, hp, ha]
    cases hc : s.closed with
    | false => exact .landed load e result rfl (takes_endLoad hn hc he hflies ha harrived)
    | true =>
        refine .dropped load rfl hflies hc ?_ ?_ (by rw [ends, if_pos hc])
        · rw [endLoad, if_pos hc]
          rfl
        · rw [inFlight_endLoad]
          exact hn.inFlight_dropLoad_perm hflies
  · have hflies : load ∉ s.inFlight p := by simp [mem_inFlight, hp]
    have hspares : s.Spares p (if s.closed then s else s.completeLoad load.provider result) := by
      split_ifs
      · exact .refl s p
      · exact completeLoad_spares hp result
    have hended : s.ends p (.advance (.load load.ticket)) = [] := by
      rw [ends, completions_of_arrived hn hl ha harrived, loadCompletion]
      cases s.tree.entity? load.provider <;> simp [hp]
    refine .spared ⟨hspares.state, hspares.payload, ?_⟩ hended
    rw [inFlight_endLoad]
    exact hn.inFlight_dropLoad_of_not_mem hl hflies

/-- In an open session the move of a load whose answer has come takes its result. -/
lemma takes_apply (hn : s.Numbered) (hopen : s.closed = false) {e : Entity}
    (he : s.tree.entity? p = some e) {load : Load} (hl : load ∈ s.inFlight p) {arrival : Nat}
    {result : LoadResult} (ha : load.answer = some (arrival, result))
    (harrived : arrival ≤ s.clock) :
    s.Takes p load e result (s.apply (.advance (.load load.ticket))) := by
  have happly : s.apply (.advance (.load load.ticket)) = s.endLoad load result := by
    show s.advanceLoad load.ticket = _
    simp only [advanceLoad, hn.find?_eq (mem_inFlight.mp hl).1, ha, if_pos harrived]
  rw [happly]
  exact takes_endLoad hn hopen he hl ha harrived

lemma handles_advanceLoad (hn : s.Numbered) {e : Entity} (he : s.tree.entity? p = some e)
    (ticket : Nat) : s.Handles p (.advance (.load ticket)) (s.advanceLoad ticket) := by
  rw [advanceLoad]
  cases hf : s.loads.find? fun load => load.ticket = ticket with
  | none => exact handles_refl (by simp only [completions, hf])
  | some load =>
      have hl : load ∈ s.loads := List.mem_of_find?_eq_some hf
      obtain rfl : load.ticket = ticket := by simpa using List.find?_some hf
      dsimp only
      cases ha : load.answer with
      | none =>
          exact handles_beginLoad hn hl ha (ends_eq_nil (by simp only [completions, hf, ha]) p)
      | some answer =>
          obtain ⟨arrival, result⟩ := answer
          by_cases harrived : arrival ≤ s.clock
          · simpa only [if_pos harrived] using handles_endLoad hn he hl ha harrived
          · simp only [if_neg harrived]
            exact handles_refl (by simp only [completions, hf, ha, if_neg harrived])

/-- What a move other than that of a lane does to an entity. -/
lemma handles_of_ne_lane (hn : s.Numbered) {e : Entity} (he : s.tree.entity? p = some e) {m : Move}
    (hm : ∀ source, m ≠ .advance (.lane source)) : s.Handles p m (s.apply m) := by
  cases m with
  | dispatch event => exact handles_dispatch event rfl
  | raise source name payload => exact handles_raise source name payload
  | load id => exact handles_hostLoad id
  | begin id => exact handles_begin id
  | complete id outcome payload => exact handles_complete id outcome payload
  | teardown => exact .spared (.of_eq s.teardown_tree s.teardown_loads) (ends_eq_nil rfl p)
  | elapse moment => exact .spared (.of_eq rfl rfl) (ends_eq_nil rfl p)
  | advance task =>
      cases task with
      | lane source => exact absurd rfl (hm source)
      | load ticket => exact handles_advanceLoad hn he ticket
      | timer generation =>
          refine .spared ?_ (ends_eq_nil rfl p)
          show s.Spares p (s.advanceTimer generation)
          rw [advanceTimer]
          split
          · exact .refl s p
          · split_ifs
            · exact (spares_enqueue s p _ _).trans (.of_eq rfl rfl)
            · exact .refl s p

/-- **What a move does to a provider.** -/
theorem handles_apply (h : s.Orderly) (hp : s.tree.roleAt? p = some .dataProvider) (m : Move) :
    s.Handles p m (s.apply m) := by
  obtain ⟨e, he, -⟩ := Option.map_eq_some_iff.mp hp
  by_cases hm : ∃ source, m = .advance (.lane source)
  · obtain ⟨source, rfl⟩ := hm
    refine .spared (h.spares_advanceLane hp source) ?_
    rw [ends]
    split_ifs with hc
    · rfl
    · rw [List.filter_eq_nil_iff]
      intro c hmem hindex
      have hopen : s.closed = false := by simpa using hc
      simp only [completions] at hmem
      cases hturn : s.turn source with
      | none => simp [hturn] at hmem
      | some turn =>
          rw [hturn] at hmem
          have hrole := h.roleAt?_of_mem_completions hopen hturn hmem
          rw [of_decide_eq_true hindex, hp] at hrole
          cases hrole
  · exact handles_of_ne_lane h.numbered he fun source heq => hm ⟨source, heq⟩

end Handles

section Runs

variable {host : Host} {document : Document} {p : Nat}

/-- Every entity keeps its role along a run. -/
lemma roleAt?_run {role : Role} (hp : (ofDocument host document).tree.roleAt? p = some role)
    (moves : List Move) : ((ofDocument host document).run moves).tree.roleAt? p = some role :=
  (((ofDocument host document).sameStructure_run moves).roleAt?_eq p).trans hp

/-- What a move does to a provider in the middle of a run. -/
lemma handles_run (hp : (ofDocument host document).tree.roleAt? p = some .dataProvider)
    (moves : List Move) (m : Move) :
    ((ofDocument host document).run moves).Handles p m
      (((ofDocument host document).run moves).apply m) :=
  handles_apply (orderly_run host document moves) (roleAt?_run hp moves) m

end Runs

end Session

end Componentry

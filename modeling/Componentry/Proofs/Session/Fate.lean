import Mathlib.Tactic
import Componentry.Proofs.Session.Flight
/-!
# What becomes of a load

Loads are accepted from the host, which asks for one by id, and from the executions whose effect is
a load (`Session.admitted`).  An accepted load is ready at once, and with its first move it meets its
`LoadFate`: the provider is handed one request, or the load is refused.  A refusal for a suppressed
provider leaves one record in the journal.  The other two leave nothing: a load that comes while
another one is in progress, and a load of an entity that has no provider.

`Session.Accounted` is the account of one load along a run, and `Session.run_fate` says that every
load that a session accepts is accounted for.
-/

namespace Componentry

/-- What a load meets with its first move. -/
inductive LoadFate where
  /-- The provider is handed a request. -/
  | asks (provider : DataProvider) (request : DataRequest)
  /-- The entity with this id is suppressed. -/
  | suppressed (id : String)
  /-- Another load is in progress. -/
  | inProgress
  /-- There is no provider. -/
  | unavailable

lemma Move.exists_of_isLoadTask {m : Move} (h : m.isLoadTask = true) :
    ∃ ticket, m = .advance (.load ticket) := by
  cases m with
  | advance task =>
      cases task with
      | load ticket => exact ⟨ticket, rfl⟩
      | lane source | timer generation => cases h
  | _ => cases h

namespace LoadFate

/-- The requests that are handed to the provider. -/
def requests : LoadFate → List DataRequest
  | .asks _ request => [request]
  | .suppressed _ | .inProgress | .unavailable => []

/-- The records that are left in the journal. -/
def records : LoadFate → List Record
  | .suppressed id => [Session.refusedRecord id]
  | .asks .. | .inProgress | .unavailable => []

end LoadFate

namespace Session

/-! ### Accepted loads -/

/-- The loads that the execution of an action asks for: one, if it succeeds with such an effect. -/
def executionLoads (s : Session) (index : Nat) (event : Event) : List Nat :=
  match s.tree.entity? index with
  | none => []
  | some e => (s.ending e event).load.toList

/-- The loads that the steps of a repetition ask for. -/
def refireLoads (s : Session) (event : Event) : List PlannedStep → List Nat
  | [] => []
  | .run run :: rest =>
    s.executionLoads run.action event ++ (s.execute run.action event).refireLoads event rest
  | .skip actionId reason :: rest =>
    (s.record event (some actionId) (.skipped reason)).refireLoads event rest

/-- The loads that the move of a lane asks for. -/
def laneLoads (s : Session) (source : String) : List Nat :=
  match (s.lane source).work, (s.lane source).queue with
  | some delivery, _ =>
    if delivery.wake ≤ s.clock then s.executionLoads delivery.next.action delivery.event else []
  | none, .refire action event :: _ =>
    match (s.opened source).plan event (some action) with
    | some (.steps steps) => (s.opened source).refireLoads event steps
    | _ => []
  | none, _ => []

/-- The providers of the loads that a move makes the session accept, in order. -/
def admitted (s : Session) : Move → List Nat
  | .load id =>
    match s.load id with
    | .ok _ => (s.tree.find? id).toList
    | .error _ => []
  | .advance (.lane source) => if s.closed then [] else s.laneLoads source
  | _ => []

/-- A stretch of work in which loads of these providers are accepted, and no load ends. -/
structure Accepts (s : Session) (providers : List Nat) (t : Session) : Prop where
  loads : t.loads = s.loads ++ providers.mapIdx fun k provider => ⟨s.tickets + k, provider, none⟩
  tickets : t.tickets = s.tickets + providers.length

section Accepts

variable {s t u : Session} {providers more : List Nat}

lemma Accepts.of_eq (hloads : t.loads = s.loads) (htickets : t.tickets = s.tickets) :
    s.Accepts [] t :=
  ⟨by simp [hloads], by simp [htickets]⟩

lemma Accepts.trans (h : s.Accepts providers t) (h' : t.Accepts more u) :
    s.Accepts (providers ++ more) u where
  loads := by
    have hticket : ∀ k, s.tickets + providers.length + k = s.tickets + (k + providers.length) :=
      fun k => by omega
    rw [h'.loads, h.loads, h.tickets, List.mapIdx_append, List.append_assoc]
    simp only [hticket]
  tickets := by rw [h'.tickets, h.tickets, List.length_append, Nat.add_assoc]

lemma Accepts.trans_nil (h : s.Accepts providers t) (h' : t.Accepts [] u) :
    s.Accepts providers u := by
  simpa using h.trans h'

lemma accepts_acceptLoad? (s : Session) (provider : Option Nat) :
    s.Accepts provider.toList (s.acceptLoad? provider) := by
  cases provider with
  | none => exact .of_eq rfl rfl
  | some provider => exact ⟨by simp [acceptLoad?, acceptLoad], rfl⟩

lemma accepts_raiseLifecycle (s : Session) (index : Nat)
    (events : List (LifecycleEvent × Option Json)) :
    s.Accepts [] (s.raiseLifecycle index events) :=
  .of_eq (s.raiseLifecycle_loads index events) (s.raiseLifecycle_tickets index events)

lemma accepts_enqueue (s : Session) (source : String) (message : Message) :
    s.Accepts [] (s.enqueue source message) :=
  .of_eq (s.enqueue_loads source message) (s.enqueue_tickets source message)

lemma accepts_perform (s : Session) (effect : Effect) : s.Accepts [] (s.perform effect).1 := by
  cases effect with
  | merge place changes animated =>
      cases place with
      | entity index =>
          simp only [perform, notifyUpdate]
          split
          · split_ifs <;> exact .of_eq rfl rfl
          · exact .of_eq rfl rfl
      | _ => exact .of_eq rfl rfl
  | _ => exact .of_eq rfl rfl

lemma accepts_carryOut (s : Session) (verdict : Verdict) :
    s.Accepts [] (s.carryOut verdict).1 := by
  have hreports : s.Accepts [] { s with reports := s.reports ++ verdict.reports } := .of_eq rfl rfl
  unfold carryOut
  dsimp only
  cases verdict.result with
  | error failure => exact hreports
  | ok effect =>
      have hperform := hreports.trans (accepts_perform _ effect)
      dsimp only
      split <;> rename_i hp <;> rw [hp] at hperform <;> exact hperform

/-- **An execution** asks for one load at most, and it is accepted. -/
lemma accepts_execute (s : Session) (index : Nat) (event : Event) :
    s.Accepts (s.executionLoads index event) (s.execute index event) := by
  cases he : s.tree.entity? index with
  | none =>
      rw [execute, executionLoads, he]
      exact .of_eq rfl rfl
  | some e =>
      rw [execute_eq he, executionLoads, he]
      have hrecorded : s.Accepts [] (((s.carryOut (s.verdict e event)).1.setState index
          (s.ending e event).state).record event (some e.id) (s.ending e event).outcome) :=
        (s.accepts_carryOut (s.verdict e event)).trans (.of_eq rfl rfl)
      exact (hrecorded.trans (accepts_acceptLoad? _ _)).trans_nil (accepts_raiseLifecycle _ _ _)

lemma accepts_refireSteps (s : Session) (event : Event) (steps : List PlannedStep) :
    s.Accepts (s.refireLoads event steps)
      (steps.foldl (fun s step => s.refireStep event step) s) := by
  induction steps generalizing s with
  | nil => exact .of_eq rfl rfl
  | cons step rest ih =>
      cases step with
      | run run => exact (s.accepts_execute run.action event).trans (ih _)
      | skip actionId reason =>
          have hrecorded : s.Accepts [] (s.record event (some actionId) (.skipped reason)) :=
            .of_eq rfl rfl
          exact hrecorded.trans (ih _)

lemma accepts_proceed (s : Session) (source : String) (event : Event) (steps : List PlannedStep) :
    s.Accepts [] (s.proceed source event steps) := by
  rw [proceed_eq]
  exact .of_eq (by rw [endTurn_loads]; rfl) (by rw [endTurn_tickets]; rfl)

lemma accepts_scheduleRepeat (s : Session) (event : Event) (run : PlannedRun) :
    s.Accepts [] (s.scheduleRepeat event run) := by
  rw [scheduleRepeat]
  split <;> exact .of_eq rfl rfl

lemma accepts_runNext (s : Session) (source : String) (delivery : Delivery) :
    s.Accepts (s.executionLoads delivery.next.action delivery.event)
      (s.runNext source delivery) :=
  ((s.accepts_execute delivery.next.action delivery.event).trans_nil
    (accepts_scheduleRepeat _ delivery.event delivery.next)).trans_nil
      (accepts_proceed _ source delivery.event delivery.rest)

lemma accepts_deliver (s : Session) (source : String) (event : Event) :
    s.Accepts [] (s.deliver source event) := by
  rw [deliver]
  split
  · exact .of_eq rfl rfl
  · exact .of_eq rfl rfl
  · rename_i steps _
    have hrecorded : s.Accepts [] (s.record event none (.delivered steps.length)) := .of_eq rfl rfl
    exact hrecorded.trans (accepts_proceed _ source event steps)

/-- The move of a lane in an open session. -/
lemma accepts_advanceLane (hc : s.closed = false) (source : String) :
    s.Accepts (s.laneLoads source) (s.advanceLane source) := by
  rw [laneLoads, advanceLane]
  cases hw : (s.lane source).work with
  | some delivery =>
      simp only [hc, Bool.false_eq_true, if_false]
      split_ifs
      · exact s.accepts_runNext source delivery
      · exact .of_eq rfl rfl
  | none =>
      cases hq : (s.lane source).queue with
      | nil => exact .of_eq rfl rfl
      | cons message queue =>
          rw [opened_of_queue hw hq]
          simp only [hc, Bool.false_eq_true, if_false]
          have hopened : s.Accepts [] (s.setLane source { queue }) := .of_eq rfl rfl
          cases message with
          | deliver event => exact hopened.trans (accepts_deliver _ source event)
          | refire action event =>
              rw [take, refire]
              dsimp only
              cases (s.setLane source { queue }).plan event (some action) with
              | none => exact .of_eq rfl rfl
              | some plan =>
                  cases plan with
                  | dropped reason => exact .of_eq rfl rfl
                  | steps steps =>
                      exact (hopened.trans (accepts_refireSteps _ event steps)).trans_nil
                        (.of_eq rfl rfl)

lemma accepts_dispatch (s : Session) (event : Event) :
    s.Accepts [] (s.accepted (s.dispatch event)) := by
  rw [dispatch]
  split_ifs
  · exact .of_eq rfl rfl
  · exact .of_eq rfl rfl
  · exact .of_eq rfl rfl
  · exact s.accepts_enqueue _ _

lemma accepts_load (s : Session) (id : String) :
    s.Accepts (s.admitted (.load id)) (s.accepted (s.load id)) := by
  rw [admitted]
  cases h : s.load id with
  | error refusal => exact .of_eq rfl rfl
  | ok t =>
      rw [load] at h
      split_ifs at h
      cases ha : s.addressed id with
      | error refusal => simp [ha] at h
      | ok found =>
          obtain ⟨index, e⟩ := found
          obtain ⟨hfind, -⟩ := addressed_eq_ok ha
          rw [ha] at h
          dsimp only at h
          split_ifs at h
          cases h
          rw [hfind]
          exact s.accepts_acceptLoad? (some index)

lemma accepts_complete (s : Session) (id : String) (outcome : LifecycleEvent)
    (payload : Option Json) : s.Accepts [] (s.accepted (s.complete id outcome payload)) := by
  rw [complete]
  split
  · exact .of_eq rfl rfl
  · rename_i index e _
    split
    · exact .of_eq rfl rfl
    · rename_i state _
      have hset : s.Accepts [] (s.setState index state) := .of_eq rfl rfl
      exact hset.trans (accepts_raiseLifecycle _ _ _)

/-- **What a move makes the session accept.**  The moves of loads are apart. -/
theorem accepts_apply (s : Session) {m : Move} (hm : m.isLoadTask = false) :
    s.Accepts (s.admitted m) (s.apply m) := by
  cases m with
  | dispatch event => exact s.accepts_dispatch event
  | raise source name payload =>
      have hraise : s.Accepts [] (s.accepted (s.raise source name payload)) := by
        unfold raise
        split
        · exact .of_eq rfl rfl
        · exact s.accepts_dispatch _
      exact hraise
  | load id => exact s.accepts_load id
  | begin id =>
      have hbegin : s.Accepts [] (s.accepted (s.begin id)) := by
        rw [begin]
        split
        · exact .of_eq rfl rfl
        · split <;> exact .of_eq rfl rfl
      exact hbegin
  | complete id outcome payload => exact s.accepts_complete id outcome payload
  | teardown => exact .of_eq s.teardown_loads s.teardown_tickets
  | elapse moment => exact .of_eq rfl rfl
  | advance task =>
      cases task with
      | load ticket => cases hm
      | lane source =>
          rw [admitted]
          cases hc : s.closed with
          | true =>
              rw [apply_lane_of_closed hc]
              exact .of_eq (dropped_loads source) (dropped_tickets source)
          | false => exact accepts_advanceLane hc source
      | timer generation =>
          have htick : s.Accepts [] (s.advanceTimer generation) := by
            rw [advanceTimer]
            split
            · exact .of_eq rfl rfl
            · split_ifs
              · exact (s.accepts_enqueue _ _).trans (.of_eq rfl rfl)
              · exact .of_eq rfl rfl
          exact htick

end Accepts

/-! ### The first move -/

/-- What a load of the entity at an index meets. -/
def fate (s : Session) (index : Nat) : LoadFate :=
  match s.tree.entity? index with
  | none => .unavailable
  | some e =>
    match e.behaviour.dataProvider? with
    | none => .unavailable
    | some provider =>
      if e.suppressed then .suppressed e.id
      else if e.state = .running then .inProgress
      else .asks provider (s.loadRequest e provider)

/-- The session after a load has met its fate: the provider has been asked, or the load is gone. -/
def meet (s : Session) (load : Load) : LoadFate → Session
  | .asks provider request =>
    (s.setState load.provider .running).ask load.ticket provider request
  | .suppressed id =>
    (s.record (loadEvent id) none (.skipped .sourceSuppressed)).dropLoad load.ticket
  | .inProgress | .unavailable => s.dropLoad load.ticket

lemma beginLoad_eq (s : Session) (load : Load) :
    s.beginLoad load = s.meet load (s.fate load.provider) := by
  rw [beginLoad, fate]
  cases s.tree.entity? load.provider with
  | none => rfl
  | some e =>
      dsimp only
      cases e.behaviour.dataProvider? with
      | none => rfl
      | some provider =>
          dsimp only
          split_ifs <;> rfl

lemma beginRecords_eq (s : Session) (load : Load) :
    s.beginRecords load = (s.fate load.provider).records := by
  rw [beginRecords, fate]
  cases s.tree.entity? load.provider with
  | none => rfl
  | some e =>
      dsimp only
      cases e.behaviour.dataProvider? with
      | none => rfl
      | some provider =>
          by_cases hsuppressed : e.suppressed = true
          · simp [hsuppressed, LoadFate.records]
          · by_cases hstate : e.state = .running <;> simp [hsuppressed, hstate, LoadFate.records]

/-- The requests that the move of a load hands to its provider. -/
def handedBy (s : Session) (ticket : Nat) : List DataRequest :=
  match s.loads.find? fun load => load.ticket = ticket with
  | none => []
  | some load =>
    match load.answer with
    | none => (s.fate load.provider).requests
    | some _ => []

/-- What the move of one load does to the loads: the others stay, and if it is there still, it has
asked its provider. -/
structure Meets (s : Session) (ticket : Nat) (t : Session) : Prop where
  tickets : t.tickets = s.tickets
  kept : ∀ load ∈ s.loads, load.ticket ≠ ticket → load ∈ t.loads
  old : ∀ load ∈ t.loads, load.ticket ≠ ticket → load ∈ s.loads
  answered : ∀ load ∈ t.loads, load.ticket = ticket → load.answer.isSome

section Meets

variable {s t u : Session}

lemma meets_dropLoad (hloads : u.loads = s.loads) (htickets : u.tickets = s.tickets)
    (ticket : Nat) : s.Meets ticket (u.dropLoad ticket) where
  tickets := htickets
  kept load hl hne := List.mem_filter.mpr ⟨hloads ▸ hl, by simpa using hne⟩
  old load hl _ := hloads ▸ List.mem_of_mem_filter hl
  answered load hl heq := absurd heq (by simpa using (List.mem_filter.mp hl).2)

lemma meets_setAnswer (hloads : u.loads = s.loads) (htickets : u.tickets = s.tickets)
    (ticket arrival : Nat) (result : LoadResult) :
    s.Meets ticket (u.setAnswer ticket arrival result) where
  tickets := htickets
  kept load hl hne := by
    refine List.mem_map.mpr ⟨load, hloads ▸ hl, ?_⟩
    rw [if_neg hne]
  old load hl hne := by
    obtain ⟨old, hold, rfl⟩ := List.mem_map.mp hl
    split_ifs at hne ⊢ with heq
    · exact absurd heq hne
    · exact hloads ▸ hold
  answered load hl heq := by
    obtain ⟨old, -, rfl⟩ := List.mem_map.mp hl
    split_ifs at heq ⊢ with hold
    · rfl
    · exact absurd heq hold

lemma meets_meet (s : Session) (load : Load) (fate : LoadFate) :
    s.Meets load.ticket (s.meet load fate) := by
  cases fate with
  | asks provider request =>
      obtain ⟨u, arrival, result, -, hloads, htickets, hask⟩ :=
        exists_ask_eq (s.setState load.provider .running) load.ticket provider request
      rw [meet, hask]
      exact meets_setAnswer (s := s) hloads htickets _ _ _
  | suppressed id =>
      exact meets_dropLoad (s := s)
        (u := s.record (loadEvent id) none (.skipped .sourceSuppressed)) rfl rfl _
  | inProgress | unavailable => exact meets_dropLoad rfl rfl _

lemma completeLoad_tickets (s : Session) (index : Nat) (result : LoadResult) :
    (s.completeLoad index result).tickets = s.tickets := by
  cases he : s.tree.entity? index with
  | none => rw [completeLoad, he]
  | some e => rw [completeLoad_eq he, raiseLifecycle_tickets, modifyEntity]

lemma meets_endLoad (s : Session) (load : Load) (result : LoadResult) :
    s.Meets load.ticket (s.endLoad load result) := by
  rw [endLoad]
  refine meets_dropLoad ?_ ?_ _
  · split_ifs
    · rfl
    · exact completeLoad_loads _ _
  · split_ifs
    · rfl
    · exact s.completeLoad_tickets _ _

/-- The load that a ticket finds is the one that bears it. -/
lemma Numbered.eq_of_find? (hn : s.Numbered) {ticket : Nat} {load other : Load}
    (hfind : (s.loads.find? fun load => load.ticket = ticket) = some load) (ho : other ∈ s.loads)
    (hticket : other.ticket = ticket) : other = load := by
  rw [← hticket, hn.find?_eq ho] at hfind
  exact Option.some.inj hfind

/-- **What the move of a load does to the loads.** -/
lemma meets_apply (hn : s.Numbered) (ticket : Nat) :
    s.Meets ticket (s.apply (.advance (.load ticket))) := by
  show s.Meets ticket (s.advanceLoad ticket)
  rw [advanceLoad]
  cases hfind : s.loads.find? fun load => load.ticket = ticket with
  | none =>
      refine ⟨rfl, fun _ hl _ => hl, fun _ hl _ => hl, fun load hl heq => ?_⟩
      exact absurd heq (by simpa using List.find?_eq_none.mp hfind load hl)
  | some load =>
      obtain rfl : load.ticket = ticket := by simpa using List.find?_some hfind
      dsimp only
      cases hanswer : load.answer with
      | none =>
          dsimp only
          rw [beginLoad_eq]
          exact s.meets_meet load _
      | some answer =>
          dsimp only
          split_ifs
          · exact s.meets_endLoad load answer.2
          · refine ⟨rfl, fun _ hl _ => hl, fun _ hl _ => hl, fun other ho heq => ?_⟩
            rw [hn.eq_of_find? hfind ho heq, hanswer]
            rfl

/-- The first move of a load that has not asked its provider. -/
lemma apply_of_unanswered (hn : s.Numbered) {load : Load} (hl : load ∈ s.loads)
    (ha : load.answer = none) :
    s.apply (.advance (.load load.ticket)) = s.meet load (s.fate load.provider)
      ∧ s.handedBy load.ticket = (s.fate load.provider).requests
      ∧ s.written (.advance (.load load.ticket)) = (s.fate load.provider).records := by
  have hfind := hn.find?_eq hl
  refine ⟨?_, ?_, ?_⟩
  · show s.advanceLoad load.ticket = _
    rw [advanceLoad, hfind]
    dsimp only
    rw [ha]
    exact s.beginLoad_eq load
  · rw [handedBy, hfind]
    dsimp only
    rw [ha]
  · rw [written_eq, records, hfind]
    dsimp only
    rw [ha]
    exact s.beginRecords_eq load

end Meets

/-! ### The moves of one load along a run -/

/-- The requests that the moves of a load hand to its provider along a run. -/
def handed (s : Session) (ticket : Nat) (moves : List Move) : List DataRequest :=
  s.along (fun s m => if m = .advance (.load ticket) then s.handedBy ticket else []) moves

/-- The records that the moves of a load leave along a run. -/
def refusals (s : Session) (ticket : Nat) (moves : List Move) : List Record :=
  s.along (fun s m => if m = .advance (.load ticket) then s.written m else []) moves

lemma handed_cons (s : Session) (ticket : Nat) (m : Move) (moves : List Move) :
    s.handed ticket (m :: moves) = (if m = .advance (.load ticket) then s.handedBy ticket else [])
      ++ (s.apply m).handed ticket moves := rfl

lemma refusals_cons (s : Session) (ticket : Nat) (m : Move) (moves : List Move) :
    s.refusals ticket (m :: moves) = (if m = .advance (.load ticket) then s.written m else [])
      ++ (s.apply m).refusals ticket moves := rfl

/-- A load that has made its first move: it has asked its provider, or it is gone. -/
structure HasMet (s : Session) (ticket : Nat) : Prop where
  numbered : s.Numbered
  lt : ticket < s.tickets
  answered : ∀ load ∈ s.loads, load.ticket = ticket → load.answer.isSome

section Along

variable {s : Session} {ticket : Nat}

lemma HasMet.apply (h : s.HasMet ticket) (m : Move) : (s.apply m).HasMet ticket := by
  have hnumbered := (s.step_apply m).numbered h.numbered
  have hlt := h.lt.trans_le (s.step_apply m).issues.le
  refine ⟨hnumbered, hlt, fun load hl heq => ?_⟩
  by_cases hm : m.isLoadTask = true
  · obtain ⟨other, rfl⟩ := Move.exists_of_isLoadTask hm
    have hmeets := meets_apply h.numbered other
    by_cases ho : load.ticket = other
    · exact hmeets.answered load hl ho
    · exact h.answered load (hmeets.old load hl ho) heq
  · have haccepts := s.accepts_apply (by simpa using hm)
    rw [haccepts.loads] at hl
    obtain hl | hl := List.mem_append.mp hl
    · exact h.answered load hl heq
    · -- A load that has just been accepted bears a later ticket.
      obtain ⟨k, hk, rfl⟩ := List.mem_mapIdx.mp hl
      have hlate := h.lt
      simp only at heq
      omega

/-- After its first move a load hands out nothing and leaves nothing any more. -/
lemma HasMet.along (h : s.HasMet ticket) (moves : List Move) :
    s.handed ticket moves = [] ∧ s.refusals ticket moves = [] := by
  have hnothing : ∀ {s : Session}, s.HasMet ticket →
      s.handedBy ticket = [] ∧ s.written (.advance (.load ticket)) = [] := by
    intro s h
    rw [handedBy, written_eq, records]
    cases hfind : s.loads.find? fun load => load.ticket = ticket with
    | none => exact ⟨rfl, rfl⟩
    | some load =>
        have hticket : load.ticket = ticket := by simpa using List.find?_some hfind
        obtain ⟨answer, ha⟩ := Option.isSome_iff_exists.mp
          (h.answered load (List.mem_of_find?_eq_some hfind) hticket)
        simp [ha]
  induction moves generalizing s with
  | nil => exact ⟨rfl, rfl⟩
  | cons m moves ih =>
      obtain ⟨hhanded, hrefused⟩ := ih (h.apply m)
      rw [handed_cons, hhanded, refusals_cons, hrefused, (hnothing h).1]
      refine ⟨by simp, ?_⟩
      split_ifs with hm
      · rw [hm, (hnothing h).2, List.append_nil]
      · rfl

end Along

/-! ### The account of a load -/

/-- The account of a load along a run.  As long as it has not moved it waits, ready to do so, and
nothing has come of it.  With its first move it meets its fate, which is all that ever comes of
it. -/
inductive Accounted (s : Session) (load : Load) (moves : List Move) : Prop
  | waits (unmoved : .advance (.load load.ticket) ∉ moves) (mem : load ∈ (s.run moves).loads)
      (ready : .load load.ticket ∈ (s.run moves).ready)
      (requests : s.handed load.ticket moves = []) (records : s.refusals load.ticket moves = [])
  | meets (front back : List Move) (split : moves = front ++ .advance (.load load.ticket) :: back)
      (first : .advance (.load load.ticket) ∉ front) (fate : LoadFate)
      (met : (s.run front).fate load.provider = fate)
      (after : (s.run front).apply (.advance (.load load.ticket)) = (s.run front).meet load fate)
      (requests : s.handed load.ticket moves = fate.requests)
      (records : s.refusals load.ticket moves = fate.records)

section Account

variable {s : Session} {load : Load}

/-- A move of something else comes before the account. -/
lemma Accounted.cons {m : Move} {moves : List Move} (hm : m ≠ .advance (.load load.ticket))
    (h : (s.apply m).Accounted load moves) : s.Accounted load (m :: moves) := by
  have hhanded : s.handed load.ticket (m :: moves) = (s.apply m).handed load.ticket moves := by
    rw [handed_cons, if_neg hm, List.nil_append]
  have hrefused : s.refusals load.ticket (m :: moves)
      = (s.apply m).refusals load.ticket moves := by
    rw [refusals_cons, if_neg hm, List.nil_append]
  cases h with
  | waits unmoved mem ready requests records =>
      exact .waits (by simp [hm.symm, unmoved]) mem ready (hhanded.trans requests)
        (hrefused.trans records)
  | meets front back split first fate met after requests records =>
      exact .meets (m :: front) back (by rw [split]; rfl) (by simp [hm.symm, first]) fate met after
        (hhanded.trans requests) (hrefused.trans records)

/-- The first move of a load. -/
lemma accounted_of_first (hn : s.Numbered) (hl : load ∈ s.loads) (ha : load.answer = none)
    (moves : List Move) : s.Accounted load (.advance (.load load.ticket) :: moves) := by
  obtain ⟨happly, hhanded, hwritten⟩ := apply_of_unanswered hn hl ha
  have hmeets := meets_apply hn load.ticket
  have hmet : (s.apply (.advance (.load load.ticket))).HasMet load.ticket :=
    ⟨(s.step_apply _).numbered hn, hmeets.tickets ▸ hn.lt load hl, hmeets.answered⟩
  obtain ⟨hno, hnone⟩ := hmet.along moves
  refine .meets [] moves rfl (by simp) (s.fate load.provider) rfl happly ?_ ?_
  · rw [handed_cons, if_pos rfl, hno, hhanded, List.append_nil]
  · rw [refusals_cons, if_pos rfl, hnone, hwritten, List.append_nil]

/-- **A load that has not asked its provider is accounted for** along every run. -/
theorem accounted_of_unanswered (hn : s.Numbered) (hl : load ∈ s.loads) (ha : load.answer = none)
    (moves : List Move) : s.Accounted load moves := by
  induction moves generalizing s with
  | nil =>
      exact .waits (by simp) hl (ready_of_load hl (by rw [Load.isReady, ha])) rfl rfl
  | cons m moves ih =>
      by_cases hm : m = .advance (.load load.ticket)
      · subst hm
        exact accounted_of_first hn hl ha moves
      · refine .cons hm (ih ((s.step_apply m).numbered hn) ?_)
        by_cases htask : m.isLoadTask = true
        · obtain ⟨ticket, rfl⟩ := Move.exists_of_isLoadTask htask
          exact (meets_apply hn ticket).kept load hl fun heq => hm (by rw [heq])
        · rw [(s.accepts_apply (by simpa using htask)).loads]
          exact List.mem_append_left _ hl

end Account

/-- **Every accepted load is accounted for.**  A move accepts the loads that the host asks for, and
those that the executions it ends ask for; each of them waits until its first move, and then the
provider is handed one request, or one record says that it is suppressed, or, if another load is in
progress or there is no provider, nothing is left of it. -/
theorem run_fate (host : Host) (document : Document) (before : List Move) (m : Move) :
    let s := (ofDocument host document).run before
    (s.apply m).tickets = s.tickets + (s.admitted m).length
      ∧ ∀ k provider, (s.admitted m)[k]? = some provider →
          ∀ after, (s.apply m).Accounted ⟨s.tickets + k, provider, none⟩ after := by
  intro s
  have hn : s.Numbered := numbered_run (numbered_start _ _) before
  by_cases htask : m.isLoadTask = true
  · obtain ⟨ticket, rfl⟩ := Move.exists_of_isLoadTask htask
    exact ⟨(meets_apply hn ticket).tickets, fun k provider h => by simp [admitted] at h⟩
  · have haccepts := s.accepts_apply (by simpa using htask)
    refine ⟨haccepts.tickets, fun k provider h after => ?_⟩
    refine accounted_of_unanswered ((s.step_apply m).numbered hn) ?_ rfl after
    rw [haccepts.loads]
    refine List.mem_append_right _ (List.mem_mapIdx.mpr ?_)
    obtain ⟨hk, hprovider⟩ := List.getElem?_eq_some_iff.mp h
    exact ⟨k, hk, by rw [hprovider]⟩

/-- Of two loads that come together the second one leaves nothing. -/
theorem run_fate_feed :
    let opened := ofDocument (Host.answering 10 (.ok (.string "news"))) feed
    let s := opened.run [.load "feed"]
    let after : List Move := [.advance (.load 0), .advance (.load 1)]
    let t := s.apply (.load "feed")
    (s.admitted (.load "feed"))[0]? = some 1
      ∧ t.Accounted ⟨1, 1, none⟩ after
      ∧ (t.handed 0 after).length = 1 ∧ t.handed 1 after = [] ∧ t.refusals 1 after = [] := by
  intro opened s after t
  obtain ⟨hadmitted, hticket, hleft⟩ : (s.admitted (.load "feed"))[0]? = some 1
      ∧ s.tickets + 0 = 1
      ∧ (t.handed 0 after).length = 1 ∧ t.handed 1 after = [] ∧ t.refusals 1 after = [] := by
    decide +kernel
  have haccounted := (run_fate _ feed [.load "feed"] (.load "feed")).2 0 1 hadmitted after
  rw [hticket] at haccounted
  exact ⟨hadmitted, haccounted, hleft⟩

end Session

end Componentry

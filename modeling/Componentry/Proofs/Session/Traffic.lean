import Mathlib.Tactic
import Componentry.Proofs.Keyed
import Componentry.Proofs.Tree.Structure
import Componentry.Session.Load
/-!
# What a stretch of work leaves behind

Whatever runs in a session does three things that others can notice: it puts messages on lanes, it
writes records, and it accepts loads.  `s.Emits posts records t` says that a stretch of work leads
from `s` to `t`, that it puts `posts` on the lanes and writes `records`, both in this order, and
that it leaves the structure of the tree and the deliveries under way alone.  The work that is left
to do, `backlog`, grows with the count `pending` (`Emits.balance`).

Stretches of work follow one another (`Emits.trans`).  The lemmas below give the stretch of each
function of a session, up to `emits_execute`, the execution of an action, and `emits_refire`, a
repetition.  How an execution ends is its `Ending`; `Completion` is an execution or a load that has
ended, with the events to be raised for it, and `messagesOf` the messages that it puts on a lane.
-/

namespace Componentry

/-- How much work a lane holds: its messages and the delivery under way. -/
def Lane.weight (lane : Lane) : Nat := lane.queue.length + lane.work.toList.length

/-- The messages among some posts that go to the lane of a source. -/
def postsTo (source : String) (posts : List (String × Message)) : List Message :=
  (posts.filter fun post => post.1 = source).map Prod.snd

@[simp] lemma postsTo_nil (source : String) : postsTo source [] = [] := rfl

@[simp] lemma postsTo_append (source : String) (posts more : List (String × Message)) :
    postsTo source (posts ++ more) = postsTo source posts ++ postsTo source more := by
  simp [postsTo]

namespace Session

/-- The work that a session has left: messages on lanes, deliveries under way and loads. -/
def backlog (s : Session) : Nat :=
  (s.lanes.map fun entry => entry.2.weight).sum + s.loads.length

/-- Loads bear different tickets, all of which have been given out. -/
structure Numbered (s : Session) : Prop where
  nodup : (s.loads.map Load.ticket).Nodup
  lt : ∀ load ∈ s.loads, load.ticket < s.tickets

lemma Numbered.congr {s t : Session} (h : s.Numbered) (hloads : t.loads = s.loads)
    (htickets : t.tickets = s.tickets) : t.Numbered :=
  ⟨by rw [hloads]; exact h.nodup, by rw [hloads, htickets]; exact h.lt⟩

/-- Tickets are given out once: a ticket among the loads of `t` was among those of `s`, or it has
been given out since. -/
structure Issues (s t : Session) : Prop where
  le : s.tickets ≤ t.tickets
  old : ∀ ticket ∈ t.loads.map Load.ticket, ticket < s.tickets → ticket ∈ s.loads.map Load.ticket

namespace Issues

variable {s t u : Session}

lemma of_eq (hloads : t.loads.map Load.ticket = s.loads.map Load.ticket)
    (htickets : t.tickets = s.tickets) : s.Issues t :=
  ⟨htickets.ge, fun _ hmem _ => hloads ▸ hmem⟩

lemma trans (h : s.Issues t) (h' : t.Issues u) : s.Issues u where
  le := h.le.trans h'.le
  old ticket hmem hlt := h.old ticket (h'.old ticket hmem (hlt.trans_le h.le)) hlt

end Issues

/-- Adds messages to the end of a lane. -/
def queued (lane : Lane) (messages : List Message) : Lane :=
  { lane with queue := lane.queue ++ messages }

@[simp] lemma queued_nil (lane : Lane) : queued lane [] = lane := by simp [queued]

lemma queued_append (lane : Lane) (messages more : List Message) :
    queued lane (messages ++ more) = queued (queued lane messages) more := by
  simp [queued]

/-- A stretch of work from `s` to `t` that puts messages on lanes and writes records. -/
structure Emits (s : Session) (posts : List (String × Message)) (records : List Record)
    (t : Session) : Prop where
  tree : s.tree.SameStructure t.tree
  host : t.host = s.host
  clock : t.clock = s.clock
  closed : t.closed = s.closed
  lane : ∀ source, t.lane source = queued (s.lane source) (postsTo source posts)
  journal : t.journal = s.journal ++ records
  loads : s.loads <+: t.loads
  issues : s.Issues t
  numbered : s.Numbered → t.Numbered
  balance : t.pending + s.backlog = s.pending + t.backlog

namespace Emits

variable {s t u : Session} {posts more : List (String × Message)} {records further : List Record}

lemma refl (s : Session) : s.Emits [] [] s where
  tree := .refl _
  host := rfl
  clock := rfl
  closed := rfl
  lane := by simp
  journal := by simp
  loads := List.prefix_refl _
  issues := .of_eq rfl rfl
  numbered h := h.congr rfl rfl
  balance := rfl

/-- Stretches of work follow one another. -/
lemma trans (h : s.Emits posts records t) (h' : t.Emits more further u) :
    s.Emits (posts ++ more) (records ++ further) u where
  tree := h.tree.trans h'.tree
  host := h'.host.trans h.host
  clock := h'.clock.trans h.clock
  closed := h'.closed.trans h.closed
  lane source := by rw [h'.lane, h.lane, postsTo_append, queued_append]
  journal := by rw [h'.journal, h.journal, List.append_assoc]
  loads := h.loads.trans h'.loads
  issues := h.issues.trans h'.issues
  numbered hn := h'.numbered (h.numbered hn)
  balance := by
    have h1 := h.balance
    have h2 := h'.balance
    omega

/-- A stretch of work that only changes the tree inside its structure, and what the host is shown
and told. -/
lemma of_tree (h : s.tree.SameStructure t.tree) (hhost : t.host = s.host)
    (hclock : t.clock = s.clock) (hclosed : t.closed = s.closed) (hlanes : t.lanes = s.lanes)
    (hjournal : t.journal = s.journal) (hloads : t.loads = s.loads)
    (htickets : t.tickets = s.tickets) (hpending : t.pending = s.pending) : s.Emits [] [] t where
  tree := h
  host := hhost
  clock := hclock
  closed := hclosed
  lane source := by simp [Session.lane, hlanes]
  journal := by simp [hjournal]
  loads := by simp [hloads]
  issues := .of_eq (by rw [hloads]) htickets
  numbered h := h.congr hloads htickets
  balance := by rw [backlog, backlog, hlanes, hloads, hpending]

end Emits

/-! ### Lanes -/

lemma lane_setLane (s : Session) (source other : String) (lane : Lane) :
    (s.setLane source lane).lane other = if source = other then lane else s.lane other := by
  rw [Session.lane, setLane, Keyed.lookup_insert]
  split_ifs <;> rfl

/-- The backlog changes by what changes on one lane. -/
lemma backlog_setLane (s : Session) (source : String) (lane : Lane) :
    (s.setLane source lane).backlog + (s.lane source).weight = s.backlog + lane.weight := by
  have h := Keyed.sum_insert Lane.weight s.lanes source lane
  have hw : (s.lanes.lookup source).elim 0 Lane.weight = (s.lane source).weight := by
    rw [Session.lane]
    cases s.lanes.lookup source <;> rfl
  rw [hw] at h
  simp only [backlog, setLane]
  omega

lemma weight_le_backlog (s : Session) (source : String) : (s.lane source).weight ≤ s.backlog := by
  have h := s.backlog_setLane source {}
  simp only [Lane.weight, List.length_nil, Option.toList_none, Nat.add_zero] at h
  simp only [Lane.weight]
  omega

/-! ### The small functions -/

variable (s : Session)

lemma emits_record (event : Event) (action : Option String) (outcome : Outcome) :
    s.Emits [] [⟨event.source, event.name, action, outcome⟩] (s.record event action outcome) where
  tree := .refl _
  host := rfl
  clock := rfl
  closed := rfl
  lane source := by simp [record, lane]
  journal := rfl
  loads := List.prefix_refl _
  issues := .of_eq rfl rfl
  numbered h := h.congr rfl rfl
  balance := rfl

lemma emits_modifyEntity (index : Nat) {f : Entity → Entity} (hf : ∀ e, (f e).frame = e.frame) :
    s.Emits [] [] (s.modifyEntity index f) :=
  .of_tree (.modify s.tree index hf) rfl rfl rfl rfl rfl rfl rfl rfl

lemma emits_setState (index : Nat) (state : LifecycleState) :
    s.Emits [] [] (s.setState index state) :=
  s.emits_modifyEntity index fun _ => rfl

lemma emits_acceptLoad (provider : Nat) : s.Emits [] [] (s.acceptLoad provider) where
  tree := .refl _
  host := rfl
  clock := rfl
  closed := rfl
  lane source := by simp [acceptLoad, lane]
  journal := by simp [acceptLoad]
  loads := List.prefix_append _ _
  issues := by
    refine ⟨Nat.le_succ _, fun ticket hmem hlt => ?_⟩
    simp only [acceptLoad, List.map_append, List.map_cons, List.map_nil] at hmem
    obtain hmem | hmem := List.mem_append.mp hmem
    · exact hmem
    · exact absurd (List.mem_singleton.mp hmem) hlt.ne
  numbered h := by
    refine ⟨?_, fun load hl => ?_⟩
    · simp only [acceptLoad, List.map_append, List.map_cons, List.map_nil]
      refine h.nodup.append (List.nodup_singleton _) fun ticket ht hs => ?_
      obtain ⟨load, hl, rfl⟩ := List.mem_map.mp ht
      exact (h.lt load hl).ne (List.mem_singleton.mp hs)
    · simp only [acceptLoad, List.mem_append, List.mem_singleton] at hl ⊢
      rcases hl with hl | rfl
      · exact (h.lt load hl).trans (Nat.lt_succ_self _)
      · exact Nat.lt_succ_self _
  balance := by
    simp only [acceptLoad, backlog, List.length_append, List.length_cons, List.length_nil]
    omega

/-- A message is put on its lane unless the session is closed. -/
lemma emits_enqueue (source : String) (message : Message) :
    s.Emits (if s.closed then [] else [(source, message)]) [] (s.enqueue source message) := by
  rw [enqueue]
  split_ifs with hc
  · exact .refl s
  · set lane' : Lane := { s.lane source with queue := (s.lane source).queue ++ [message] }
    have hb := s.backlog_setLane source lane'
    exact
      { tree := .refl _
        host := rfl
        clock := rfl
        closed := rfl
        lane := fun other => by
          refine (s.lane_setLane source other lane').trans ?_
          split_ifs with h
          · simp [postsTo, h, queued, lane']
          · simp [postsTo, h]
        journal := by simp [setLane]
        loads := List.prefix_refl _
        issues := .of_eq rfl rfl
        numbered := fun h => h.congr rfl rfl
        balance := by
          simp only [Lane.weight, List.length_append, List.length_cons, List.length_nil,
            lane'] at hb
          simp only [backlog, setLane] at hb ⊢
          omega }

/-- Messages are put on their lanes one after the other. -/
def post (s : Session) (posts : List (String × Message)) : Session :=
  posts.foldl (fun s post => s.enqueue post.1 post.2) s

lemma emits_post {s : Session} (hc : s.closed = false) (posts : List (String × Message)) :
    s.Emits posts [] (s.post posts) := by
  induction posts generalizing s with
  | nil => exact .refl s
  | cons first rest ih =>
      have h := s.emits_enqueue first.1 first.2
      rw [if_neg (by simp [hc])] at h
      exact h.trans (ih (h.closed.trans hc))

lemma post_of_closed {s : Session} (hc : s.closed = true) (posts : List (String × Message)) :
    s.post posts = s := by
  induction posts with
  | nil => rfl
  | cons first rest ih => rw [post, List.foldl_cons, enqueue, if_pos hc, ← post, ih]

/-! ### Completions -/

end Session

/-- An execution or a load that has ended: the entity, and the events to be raised for it. -/
structure Completion where
  index : Nat
  events : List (LifecycleEvent × Option Json)
  deriving DecidableEq

/-- The message that reports one lifecycle event of an entity. -/
def lifecycleMessage (id : String) (event : LifecycleEvent × Option Json) : Message :=
  .deliver ⟨EventName.ofLifecycle event.1, id, event.2⟩

namespace Session

/-- What a completion puts on lanes: its events in order, on the lane of the id of the entity, if
the entity binds anything. -/
def messagesOf (s : Session) (c : Completion) : List (String × Message) :=
  match s.tree.entity? c.index with
  | none => []
  | some e =>
    if e.bindings = [] then []
    else c.events.map fun event => (e.id, lifecycleMessage e.id event)

lemma messagesOf_congr {s t : Session} (h : s.tree.SameStructure t.tree) (c : Completion) :
    t.messagesOf c = s.messagesOf c := by
  have hid := h.map_eq c.index Entity.id fun _ => rfl
  have hb := h.map_eq c.index Entity.bindings fun _ => rfl
  unfold messagesOf
  cases ht : t.tree.entity? c.index <;> cases hs : s.tree.entity? c.index <;> simp_all

lemma raiseLifecycle_eq_post (s : Session) (c : Completion) :
    s.raiseLifecycle c.index c.events = s.post (s.messagesOf c) := by
  rw [raiseLifecycle, messagesOf]
  cases s.tree.entity? c.index with
  | none => rfl
  | some e =>
      dsimp only
      split_ifs
      · rfl
      · rw [post, List.foldl_map]
        rfl

/-- Raising the events of a completion puts its messages on a lane, unless the session is closed. -/
lemma emits_raiseLifecycle (s : Session) (c : Completion) :
    s.Emits (if s.closed then [] else s.messagesOf c) [] (s.raiseLifecycle c.index c.events) := by
  rw [raiseLifecycle_eq_post]
  cases hc : s.closed with
  | false => exact emits_post hc _
  | true => rw [post_of_closed hc]; exact .refl s

/-! ### What raising events leaves alone -/

section Raising

variable (s : Session)

@[simp] lemma enqueue_tree (source : String) (message : Message) :
    (s.enqueue source message).tree = s.tree := by
  rw [enqueue]; split_ifs <;> rfl

@[simp] lemma enqueue_loads (source : String) (message : Message) :
    (s.enqueue source message).loads = s.loads := by
  rw [enqueue]; split_ifs <;> rfl

@[simp] lemma enqueue_tickets (source : String) (message : Message) :
    (s.enqueue source message).tickets = s.tickets := by
  rw [enqueue]; split_ifs <;> rfl

/-- What no message changes is not changed by raising events. -/
lemma raiseLifecycle_eq {α : Type} (f : Session → α)
    (hf : ∀ s source message, f (enqueue s source message) = f s) (index : Nat)
    (events : List (LifecycleEvent × Option Json)) : f (s.raiseLifecycle index events) = f s := by
  rw [s.raiseLifecycle_eq_post ⟨index, events⟩]
  generalize s.messagesOf ⟨index, events⟩ = posts
  induction posts generalizing s with
  | nil => rfl
  | cons first rest ih => exact (ih _).trans (hf s first.1 first.2)

@[simp] lemma raiseLifecycle_tree (index : Nat) (events : List (LifecycleEvent × Option Json)) :
    (s.raiseLifecycle index events).tree = s.tree :=
  s.raiseLifecycle_eq tree enqueue_tree index events

@[simp] lemma raiseLifecycle_loads (index : Nat) (events : List (LifecycleEvent × Option Json)) :
    (s.raiseLifecycle index events).loads = s.loads :=
  s.raiseLifecycle_eq loads enqueue_loads index events

@[simp] lemma raiseLifecycle_tickets (index : Nat) (events : List (LifecycleEvent × Option Json)) :
    (s.raiseLifecycle index events).tickets = s.tickets :=
  s.raiseLifecycle_eq tickets enqueue_tickets index events

end Raising

end Session

/-! ### Executions -/

/-- How the execution of an action ends: what is recorded, the load it asks for, and the lifecycle
events it raises. -/
structure Ending where
  outcome : Outcome
  load : Option Nat
  events : List (LifecycleEvent × Option Json)

/-- The provider that an effect loads. -/
def Effect.provider? : Effect → Option Nat
  | .load provider => some provider
  | .none | .alert _ | .merge .. | .redraw _ | .call _ => Option.none

/-- The ending of an action with an id whose effect has been carried out, or has failed. -/
def Ending.of (id : String) : Except ActionError Effect → Ending
  | .ok effect => ⟨.executed, effect.provider?, LifecycleEvent.success.raised.map (·, none)⟩
  | .error failure =>
    let message := Session.failureMessage id failure
    ⟨.failed message, none, [(.failed, some (.object [("message", .string message)]))]⟩

/-- The state that an entity settles into. -/
def Ending.state (ending : Ending) : LifecycleState :=
  match ending.outcome with
  | .executed => .finished
  | _ => .failed

namespace Session

/-- How the execution of an action on an event ends. -/
def ending (s : Session) (e : Entity) (event : Event) : Ending :=
  .of e.id (s.carryOut (s.verdict e event)).2

/-- Accepts the load that an execution asks for. -/
def acceptLoad? (s : Session) : Option Nat → Session
  | some provider => s.acceptLoad provider
  | none => s

lemma emits_acceptLoad? (s : Session) (provider : Option Nat) :
    s.Emits [] [] (s.acceptLoad? provider) := by
  cases provider with
  | none => exact .refl s
  | some provider => exact s.emits_acceptLoad provider

/-- The execution of an action in its four parts: the effect, the record, the load, the events. -/
lemma execute_eq {s : Session} {index : Nat} {e : Entity} (he : s.tree.entity? index = some e)
    (event : Event) :
    s.execute index event
      = (((((s.carryOut (s.verdict e event)).1.setState index (s.ending e event).state).record
          event (some e.id) (s.ending e event).outcome).acceptLoad?
            (s.ending e event).load).raiseLifecycle index (s.ending e event).events) := by
  rw [execute, ending]
  rw [he]
  dsimp only
  rcases hr : s.carryOut (s.verdict e event) with ⟨t, result⟩
  cases result with
  | error failure => rfl
  | ok effect => cases effect <;> rfl

/-- Carrying an effect out changes the tree inside its structure. -/
lemma emits_perform (s : Session) (effect : Effect) : s.Emits [] [] (s.perform effect).1 := by
  cases effect with
  | merge place changes animated =>
      have h := Tree.SameStructure.merge s.tree place changes
      cases place with
      | app => exact .of_tree h rfl rfl rfl rfl rfl rfl rfl rfl
      | session => exact .of_tree h rfl rfl rfl rfl rfl rfl rfl rfl
      | entity index =>
          simp only [perform, notifyUpdate]
          split
          · split_ifs <;> exact .of_tree h rfl rfl rfl rfl rfl rfl rfl rfl
          · exact .of_tree h rfl rfl rfl rfl rfl rfl rfl rfl
  | none => exact .refl s
  | load provider => exact .refl s
  | alert alert => exact .of_tree (.refl _) rfl rfl rfl rfl rfl rfl rfl rfl
  | redraw id => exact .of_tree (.refl _) rfl rfl rfl rfl rfl rfl rfl rfl
  | call call => exact .of_tree (.refl _) rfl rfl rfl rfl rfl rfl rfl rfl

lemma emits_carryOut (s : Session) (verdict : Verdict) :
    s.Emits [] [] (s.carryOut verdict).1 := by
  have h0 : s.Emits [] [] { s with reports := s.reports ++ verdict.reports } :=
    .of_tree (.refl _) rfl rfl rfl rfl rfl rfl rfl rfl
  unfold carryOut
  dsimp only
  cases verdict.result with
  | error e => exact h0
  | ok effect =>
      have h1 := h0.trans (emits_perform _ effect)
      dsimp only
      split <;> rename_i hp <;> rw [hp] at h1 <;> exact h1

/-- The record of an execution. -/
def executionRecord (event : Event) (id : String) (outcome : Outcome) : Record :=
  ⟨event.source, event.name, some id, outcome⟩

/-- **The execution of an action** writes one record and puts the messages of its completion on the
lane of the action. -/
lemma emits_execute {s : Session} {index : Nat} {e : Entity}
    (he : s.tree.entity? index = some e) (event : Event) :
    s.Emits (if s.closed then [] else s.messagesOf ⟨index, (s.ending e event).events⟩)
      [executionRecord event e.id (s.ending e event).outcome] (s.execute index event) := by
  rw [execute_eq he]
  set ended := s.ending e event
  have h := (((s.emits_carryOut (s.verdict e event)).trans
    (emits_setState _ index ended.state)).trans
      (emits_record _ event (some e.id) ended.outcome)).trans (emits_acceptLoad? _ ended.load)
  have hr := emits_raiseLifecycle
    ((((s.carryOut (s.verdict e event)).1.setState index ended.state).record event (some e.id)
      ended.outcome).acceptLoad? ended.load) ⟨index, ended.events⟩
  rw [h.closed, messagesOf_congr h.tree] at hr
  exact h.trans hr

lemma emits_scheduleRepeat (s : Session) (event : Event) (run : PlannedRun) :
    s.Emits [] [] (s.scheduleRepeat event run) := by
  rw [scheduleRepeat]
  split
  · exact .refl s
  · exact .refl s
  · exact .of_tree (.refl _) rfl rfl rfl rfl rfl rfl rfl rfl

end Session

end Componentry

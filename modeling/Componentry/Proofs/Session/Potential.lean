import Mathlib.Tactic
import Componentry.Proofs.Session.Cascade
import Componentry.Proofs.Session.Settle
/-!
# The potential of a session

How much can come of an event is bounded by where in the tree its entity stands.  An event runs no
more actions than there are bindings, and each of them raises two events at most, further back in
the tree.  So an event at one entity is worth a fixed multiple, `Tree.base`, of one at the next, and
its worth is a power of the base (`Tree.reach`).

The `Tree.potential` of a session is what all messages, deliveries under way and loads are worth
together.  A move of the session itself uses up at least what it does: the records that it writes,
and one for the move if its task is ready.  Only the host adds to the potential
(`Session.Cascading.potential_apply`), so that the moves of the host bound what a run does
(`Session.Cascading.potential_run`), and a schedule that settles comes to its end
(`Schedule.settles`).
-/

namespace Componentry

namespace Tree

variable {t : Tree}

/-! ### What things are worth -/

/-- The number of bindings in a tree. -/
def width (t : Tree) : Nat := (t.entities.map fun e => e.bindings.length).sum

/-- By how much more an event is worth than one at the next entity. -/
def base (t : Tree) : Nat := 4 * t.width + 2

/-- What an event at an entity is worth. -/
def reach (t : Tree) (index : Nat) : Nat := t.base ^ (t.size - index)

/-- What an event of a source is worth. -/
def worth (t : Tree) (source : String) : Nat := ((t.find? source).map t.reach).getD 0

/-- What a step of a delivery may cost: the record and the move, and for an action that runs the
events that it raises. -/
def stepCost (t : Tree) : PlannedStep → Nat
  | .run run => 2 + 2 * t.reach run.action
  | .skip .. => 1

/-- What the steps of a delivery may cost. -/
def stepsCost (t : Tree) (steps : List PlannedStep) : Nat := (steps.map t.stepCost).sum

/-- What the delivery under way on a lane may cost. -/
def workCost (t : Tree) : Option Delivery → Nat
  | none => 0
  | some delivery => t.stepCost (.run delivery.next) + t.stepsCost delivery.rest

/-- What messages on the way to lanes are worth. -/
def postsCost (t : Tree) (posts : List (String × Message)) : Nat :=
  (posts.map fun post => t.worth post.1).sum

/-- What a lane may cost: its messages and the delivery under way. -/
def laneCost (t : Tree) (source : String) (lane : Lane) : Nat :=
  lane.queue.length * t.worth source + t.workCost lane.work

/-- What the lanes of all entities may cost. -/
def lanesCost (t : Tree) (s : Session) : Nat :=
  ∑ source ∈ t.ids.keys.toFinset, t.laneCost source (s.lane source)

/-- What a load may cost: two moves and a record until it is answered, one move afterwards, and the
events of its outcome. -/
def loadCost (t : Tree) (load : Load) : Nat :=
  match load.answer with
  | none => 3 + 2 * t.reach 0
  | some _ => 1 + 2 * t.reach 0

/-- What loads may cost together. -/
def loadsCost (t : Tree) (loads : List Load) : Nat := (loads.map t.loadCost).sum

/-- The potential of a session on a tree. -/
def potential (t : Tree) (s : Session) : Nat := t.lanesCost s + t.loadsCost s.loads

/-- What a move adds to the potential at most: only the host adds anything. -/
def gain (t : Tree) (m : Move) : Nat := if m.isInternal then 0 else 3 + 2 * t.reach 0

lemma reach_pos (t : Tree) (i : Nat) : 0 < t.reach i := Nat.pow_pos (by rw [base]; omega)

lemma reach_anti (t : Tree) {i j : Nat} (h : i ≤ j) : t.reach j ≤ t.reach i :=
  Nat.pow_le_pow_right (by rw [base]; omega) (by omega)

lemma reach_eq {i : Nat} (hi : i < t.size) : t.reach i = t.base * t.reach (i + 1) := by
  rw [reach, reach, ← pow_succ', show t.size - i = t.size - (i + 1) + 1 by omega]

lemma worth_eq {source : String} {i : Nat} (h : t.find? source = some i) :
    t.worth source = t.reach i := by
  rw [worth, h, Option.map_some, Option.getD_some]

lemma worth_le (t : Tree) (source : String) : t.worth source ≤ t.reach 0 := by
  rw [worth]
  cases t.find? source with
  | none => exact Nat.zero_le _
  | some i => exact t.reach_anti (Nat.zero_le i)

@[simp] lemma postsCost_nil (t : Tree) : t.postsCost [] = 0 := rfl

@[simp] lemma postsCost_append (t : Tree) (posts more : List (String × Message)) :
    t.postsCost (posts ++ more) = t.postsCost posts + t.postsCost more := by
  simp [postsCost]

/-- An entity binds no more actions to an event than there are bindings. -/
lemma boundActions_length_le (t : Tree) (i : Nat) (event : EventName) :
    (t.boundActions i event).length ≤ t.width := by
  rw [boundActions]
  cases he : t.entity? i with
  | none => exact Nat.zero_le _
  | some e =>
      have hmem : e.bindings.length ∈ t.entities.map fun e => e.bindings.length :=
        List.mem_map_of_mem (List.mem_of_getElem? he)
      calc ((e.bindings.filter fun b => b.event = event).map Binding.action).length
          = (e.bindings.filter fun b => b.event = event).length := List.length_map _
        _ ≤ e.bindings.length := List.length_filter_le _ _
        _ ≤ t.width := List.single_le_sum (by simp) _ hmem

/-- **An event is worth its delivery**: the record and the move that begin it, and all of its
steps. -/
lemma stepsCost_le {i : Nat} (hi : i < t.size) {steps : List PlannedStep}
    (hlength : steps.length ≤ t.width) (hlt : ∀ run, .run run ∈ steps → i < run.action) :
    2 + t.stepsCost steps ≤ t.reach i := by
  set next := t.reach (i + 1)
  have hpos : 0 < next := t.reach_pos (i + 1)
  have hstep : ∀ cost ∈ steps.map t.stepCost, cost ≤ 2 + 2 * next := by
    intro cost hcost
    obtain ⟨step, hmem, rfl⟩ := List.mem_map.mp hcost
    cases step with
    | run run =>
        have hreach : t.reach run.action ≤ next := t.reach_anti (hlt run hmem)
        simp only [stepCost]
        omega
    | skip actionId reason =>
        simp only [stepCost]
        omega
  have hwidth : t.width ≤ t.width * next := Nat.le_mul_of_pos_right _ hpos
  calc 2 + t.stepsCost steps
      ≤ 2 + steps.length * (2 + 2 * next) := by
        have hsum := List.sum_le_card_nsmul _ _ hstep
        rw [List.length_map, smul_eq_mul] at hsum
        exact Nat.add_le_add_left hsum 2
    _ ≤ 2 + t.width * (2 + 2 * next) := by gcongr
    _ = 2 + 2 * t.width + 2 * (t.width * next) := by ring
    _ ≤ 4 * (t.width * next) + 2 * next := by omega
    _ = t.base * next := by rw [base]; ring
    _ = t.reach i := (reach_eq hi).symm

/-! ### Lanes -/

/-- What is put on lanes adds what it is worth. -/
lemma sum_postsTo_le (t : Tree) (posts : List (String × Message)) :
    ∑ source ∈ t.ids.keys.toFinset, (postsTo source posts).length * t.worth source
      ≤ t.postsCost posts := by
  induction posts with
  | nil => simp
  | cons first rest ih =>
      have hsplit : ∀ source, (postsTo source (first :: rest)).length * t.worth source
          = (if first.1 = source then t.worth source else 0)
            + (postsTo source rest).length * t.worth source := by
        intro source
        rw [← List.singleton_append, postsTo_append, List.length_append, Nat.add_mul]
        congr 1
        by_cases h : first.1 = source <;> simp [postsTo, h]
      simp only [hsplit]
      rw [Finset.sum_add_distrib, Finset.sum_ite_eq]
      have hfirst : (if first.1 ∈ t.ids.keys.toFinset then t.worth first.1 else 0)
          ≤ t.worth first.1 := by
        split_ifs
        · exact le_rfl
        · exact Nat.zero_le _
      exact Nat.add_le_add hfirst ih

/-- Lanes that take messages cost more by what these are worth, and less by what is spent. -/
lemma lanesCost_le (s u : Session) (posts : List (String × Message)) (spent : String → Nat)
    (h : ∀ source, t.laneCost source (u.lane source) + spent source
      ≤ t.laneCost source (s.lane source) + (postsTo source posts).length * t.worth source) :
    t.lanesCost u + ∑ source ∈ t.ids.keys.toFinset, spent source
      ≤ t.lanesCost s + t.postsCost posts := by
  calc t.lanesCost u + ∑ source ∈ t.ids.keys.toFinset, spent source
      = ∑ source ∈ t.ids.keys.toFinset, (t.laneCost source (u.lane source) + spent source) :=
        Finset.sum_add_distrib.symm
    _ ≤ ∑ source ∈ t.ids.keys.toFinset, (t.laneCost source (s.lane source)
          + (postsTo source posts).length * t.worth source) :=
        Finset.sum_le_sum fun source _ => h source
    _ = t.lanesCost s
          + ∑ source ∈ t.ids.keys.toFinset, (postsTo source posts).length * t.worth source :=
        Finset.sum_add_distrib
    _ ≤ t.lanesCost s + t.postsCost posts := Nat.add_le_add_left (t.sum_postsTo_le posts) _

/-- What the lane of one entity spends. -/
lemma lanesCost_mover (s u : Session) (posts : List (String × Message)) (spent : Nat)
    {mover : String} {index : Nat} (hmover : t.find? mover = some index)
    (hspent : t.laneCost mover (u.lane mover) + spent
      ≤ t.laneCost mover (s.lane mover) + (postsTo mover posts).length * t.worth mover)
    (h : ∀ source ≠ mover, t.laneCost source (u.lane source)
      ≤ t.laneCost source (s.lane source) + (postsTo source posts).length * t.worth source) :
    t.lanesCost u + spent ≤ t.lanesCost s + t.postsCost posts := by
  have hmem : mover ∈ t.ids.keys.toFinset := by
    rw [List.mem_toFinset]
    by_contra hnot
    rw [find?, (Keyed.lookup_eq_none_iff t.ids mover).mpr hnot] at hmover
    cases hmover
  have hsum := t.lanesCost_le s u posts (Pi.single mover spent)
    fun source => by
      by_cases hsource : source = mover
      · subst hsource
        rwa [Pi.single_eq_same]
      · rw [Pi.single_eq_of_ne hsource]
        exact h source hsource
  rwa [Finset.sum_pi_single', if_pos hmem] at hsum

/-! ### Loads -/

lemma loadsCost_split (t : Tree) (front back : List Load) (load : Load) :
    t.loadsCost (front ++ load :: back) = t.loadsCost (front ++ back) + t.loadCost load := by
  simp only [loadsCost, List.map_append, List.map_cons, List.sum_append, List.sum_cons]
  omega

end Tree

namespace Session

variable {s : Session} {t : Tree}

/-- A load that ends sets its cost free. -/
lemma loadsCost_dropLoad (hn : s.Numbered) {load : Load} (hl : load ∈ s.loads) :
    t.loadsCost (s.dropLoad load.ticket).loads + t.loadCost load = t.loadsCost s.loads := by
  obtain ⟨front, back, hsplit, hfront, hback⟩ := hn.exists_split hl
  rw [loads_dropLoad hsplit hfront hback, hsplit, t.loadsCost_split]

/-- A load that is answered costs less by a move and a record. -/
lemma loadsCost_setAnswer (hn : s.Numbered) {load : Load} (hl : load ∈ s.loads)
    (ha : load.answer = none) (arrival : Nat) (result : LoadResult) :
    t.loadsCost (s.setAnswer load.ticket arrival result).loads + 2 = t.loadsCost s.loads := by
  obtain ⟨front, back, hsplit, hfront, hback⟩ := hn.exists_split hl
  rw [loads_setAnswer hsplit hfront hback, hsplit, t.loadsCost_split, t.loadsCost_split]
  simp only [Tree.loadCost, ha]
  omega

/-! ### What a turn costs -/

/-- The steps of a delivery cost what is recorded of them at once, and what is left to do. -/
lemma stepsCost_eq (t : Tree) (s : Session) (event : Event) (steps : List PlannedStep) :
    t.stepsCost steps
      = (skipRecords event steps).length + t.workCost (s.workFrom event steps) := by
  induction steps with
  | nil => rfl
  | cons step rest ih =>
      cases step with
      | run next => simp [Tree.stepsCost, skipRecords, workFrom, Tree.workCost]
      | skip actionId reason =>
          rw [Tree.stepsCost, List.map_cons, List.sum_cons, ← Tree.stepsCost, ih, skipRecords,
            workFrom, List.length_cons, Tree.stepCost]
          omega

/-- No more steps are planned than there are bound actions. -/
lemma plan_length {event : Event} {only : Option Nat} {steps : List PlannedStep}
    (h : s.plan event only = some (.steps steps)) :
    ∃ index, s.tree.find? event.source = some index
      ∧ steps.length ≤ (s.tree.boundActions index event.name).length := by
  simp only [plan, Option.bind_eq_bind, Option.bind_eq_some_iff] at h
  obtain ⟨index, hfind, source, -, h⟩ := h
  refine ⟨index, hfind, ?_⟩
  split at h
  · cases h
  · cases h
    exact (List.length_filterMap_le _ _).trans (List.length_filter_le _ _)

/-- An execution raises two events at most. -/
lemma ending_events_length (s : Session) (e : Entity) (event : Event) :
    (s.ending e event).events.length ≤ 2 := by
  rw [ending]
  cases (s.carryOut (s.verdict e event)).2 <;> simp [Ending.of, LifecycleEvent.raised]

lemma raised_length (outcome : LifecycleEvent) : outcome.raised.length ≤ 2 := by
  cases outcome <;> simp [LifecycleEvent.raised]

/-- The turn that takes an event costs what the event is worth. -/
lemma deliverTurn_cost (ht : t.Ordered) (htree : t.SameStructure s.tree) {event : Event} {i : Nat}
    (hfind : t.find? event.source = some i) :
    t.workCost (s.deliverTurn event).work + (1 + (s.deliverTurn event).records.length)
      ≤ t.reach i := by
  have hlt : i < t.size := Tree.lt_size_of_idAt? (ht.sound.held _ _ hfind)
  have htwo : 2 + t.stepsCost [] ≤ t.reach i :=
    Tree.stepsCost_le hlt (Nat.zero_le _) (by simp)
  rw [deliverTurn]
  cases hplan : s.plan event none with
  | none =>
      simp only [Tree.stepsCost, List.map_nil, List.sum_nil] at htwo
      simp only [Tree.workCost, List.length_nil]
      omega
  | some plan =>
      cases plan with
      | dropped reason =>
          simp only [Tree.stepsCost, List.map_nil, List.sum_nil] at htwo
          simp only [Tree.workCost, List.length_singleton]
          omega
      | steps steps =>
          obtain ⟨index, hfound, hlength⟩ := plan_length hplan
          have hwidth : steps.length ≤ t.width := by
            rw [htree.boundActions_eq] at hlength
            exact hlength.trans (t.boundActions_length_le _ _)
          have hbehind : ∀ run, PlannedStep.run run ∈ steps → i < run.action := by
            intro run hrun
            obtain ⟨j, hj, hltj, -⟩ :=
              ht.lt_of_serves (htree.symm.serves (plan_serves hplan hrun).1)
            rwa [Option.some.inj (hfind.symm.trans hj)]
          calc t.workCost (s.workFrom event steps) + (1 + ((skipRecords event steps).length + 1))
              = 2 + t.stepsCost steps := by
                rw [stepsCost_eq t s event steps]
                omega
            _ ≤ t.reach i := Tree.stepsCost_le hlt hwidth hbehind

namespace Cascading

/-- What an action raises is worth two events of its own at most. -/
lemma messages_cost (h : s.Cascading t) (ht : t.Ordered) {c : Completion}
    (hc : c.events.length ≤ 2) : t.postsCost (s.messagesOf c) ≤ 2 * t.reach c.index := by
  have hworth : ∀ cost ∈ (s.messagesOf c).map fun post => t.worth post.1,
      cost ≤ t.reach c.index := by
    intro cost hcost
    obtain ⟨post, hpost, rfl⟩ := List.mem_map.mp hcost
    rw [Tree.worth_eq (h.post_of_completion ht hpost).1]
  have hlength : (s.messagesOf c).length ≤ 2 := by
    rw [messagesOf]
    split
    · simp
    · split_ifs
      · simp
      · rwa [List.length_map]
  calc t.postsCost (s.messagesOf c)
      ≤ (s.messagesOf c).length * t.reach c.index := by
        have hsum := List.sum_le_card_nsmul _ _ hworth
        rwa [List.length_map, smul_eq_mul] at hsum
    _ ≤ 2 * t.reach c.index := Nat.mul_le_mul_right _ hlength

/-- An execution costs its record and the events that it raises. -/
lemma execution_cost (h : s.Cascading t) (ht : t.Ordered) (index : Nat) (event : Event) :
    (s.execution index event).records.length
      + t.postsCost (s.postsOf (s.execution index event).completions) ≤ 1 + 2 * t.reach index := by
  rw [execution]
  cases s.tree.entity? index with
  | none => simp [postsOf]
  | some e =>
      have hcost := h.messages_cost ht (c := ⟨index, (s.ending e event).events⟩)
        (s.ending_events_length e event)
      simpa [postsOf] using hcost

/-- The turn that goes on with a delivery costs what the delivery has set aside for it. -/
lemma nextTurn_cost (h : s.Cascading t) (ht : t.Ordered) (delivery : Delivery) :
    t.workCost (s.nextTurn delivery).work + (1 + (s.nextTurn delivery).records.length
        + t.postsCost (s.postsOf (s.nextTurn delivery).completions))
      ≤ t.workCost (some delivery) := by
  have hexecution := h.execution_cost ht delivery.next.action delivery.event
  have hrest := stepsCost_eq t s delivery.event delivery.rest
  have hwork : t.workCost (some delivery)
      = 2 + 2 * t.reach delivery.next.action + t.stepsCost delivery.rest := rfl
  simp only [nextTurn, Emission.append, List.length_append, List.append_nil]
  omega

/-- **What a turn costs**: what it leaves under way, the records, one for the move and what it puts
on lanes come out of the delivery under way before it, or out of the message that is taken. -/
lemma turn_cost (h : s.Cascading t) (ht : t.Ordered) {source : String} {turn : Turn}
    (hturn : s.turn source = some turn) :
    t.workCost turn.work
        + (1 + turn.records.length + t.postsCost (s.postsOf turn.completions))
      ≤ t.workCost (s.lane source).work
        + (s.taken source (.advance (.lane source))).length * t.worth source := by
  rw [Session.turn] at hturn
  split at hturn
  · rename_i delivery hwork
    split_ifs at hturn
    cases hturn
    rw [hwork]
    exact (h.nextTurn_cost ht delivery).trans (Nat.le_add_right _ _)
  · cases hturn
  · rename_i event queue hwork hqueue
    cases hturn
    have hmem : Message.deliver event ∈ (s.lane source).queue := by simp [hqueue]
    have hsource : event.source = source := h.sourced.queue source _ hmem
    have hfound := h.sourced.found source event hmem
    rw [h.tree.find?_eq] at hfound
    obtain ⟨i, hfind⟩ := Option.isSome_iff_exists.mp hfound
    have htree : t.SameStructure (s.opened source).tree := by
      rw [opened_tree]
      exact h.tree
    have hcost := deliverTurn_cost ht htree (hsource ▸ hfind)
    have hnone : ((s.opened source).deliverTurn event).completions = [] := by
      rw [deliverTurn]
      split <;> rfl
    have htaken : s.taken source (.advance (.lane source)) = [.deliver event] := by
      simp [taken, hwork, hqueue]
    rw [hnone, htaken, hwork, Tree.worth_eq hfind, List.length_singleton, Nat.one_mul]
    simpa [postsOf, Tree.workCost] using hcost
  · rename_i action event queue hwork hqueue
    exact absurd (by simp [hqueue]) (h.refire_not_mem ht source action event)

/-! ### What a move uses up -/

end Cascading

/-- Whether a move is that of a task that is ready, as a number. -/
def turns (s : Session) (m : Move) : Nat := if ∃ task ∈ s.ready, m = .advance task then 1 else 0

/-- How many moves of a run are those of tasks that are ready. -/
def turnCount (s : Session) : List Move → Nat
  | [] => 0
  | m :: moves => s.turns m + (s.apply m).turnCount moves

lemma turns_le_one (s : Session) (m : Move) : s.turns m ≤ 1 := by
  rw [turns]
  split_ifs <;> simp

lemma turns_of_ready {task : Task} (h : task ∈ s.ready) : s.turns (.advance task) = 1 :=
  if_pos ⟨task, h, rfl⟩

lemma turns_advance {task : Task} (h : task ∉ s.ready) : s.turns (.advance task) = 0 := by
  rw [turns, if_neg]
  rintro ⟨other, hother, heq⟩
  cases heq
  exact h hother

lemma turns_of_ne_advance {m : Move} (h : ∀ task, m ≠ .advance task) : s.turns m = 0 := by
  rw [turns, if_neg]
  rintro ⟨task, -, heq⟩
  exact h task heq

/-- A ready lane can make a move. -/
lemma isReady_lane (hkeys : s.lanes.keys.Nodup) {source : String} (h : .lane source ∈ s.ready) :
    (s.lane source).isReady s.clock s.closed = true := by
  simp only [ready, List.mem_append, List.mem_map, List.mem_filter] at h
  obtain (⟨entry, ⟨hmem, hready⟩, heq⟩ | ⟨_, _, heq⟩) | ⟨_, _, heq⟩ := h
  · cases heq
    rw [lane, Keyed.lookup_of_mem hkeys hmem]
    exact hready
  · cases heq
  · cases heq

/-- A ready load can make a move. -/
lemma isReady_load (hn : s.Numbered) {load : Load} (hl : load ∈ s.loads)
    (h : .load load.ticket ∈ s.ready) : load.isReady s.clock = true := by
  simp only [ready, List.mem_append, List.mem_map, List.mem_filter] at h
  obtain (⟨_, _, heq⟩ | ⟨other, ⟨hmem, hready⟩, heq⟩) | ⟨_, _, heq⟩ := h
  · cases heq
  · obtain rfl : other = load :=
      List.inj_on_of_nodup_map hn.nodup hmem hl (by simpa using heq)
    exact hready
  · cases heq

/-- A lane that can make a move has something to do. -/
lemma weight_of_isReady {lane : Lane} {clock : Nat} {closed : Bool}
    (h : lane.isReady clock closed = true) : lane.weight ≠ 0 := by
  rw [Lane.isReady] at h
  rw [Lane.weight]
  split at h
  · rename_i delivery hwork
    simp [hwork]
  · rename_i hwork
    simpa [hwork] using h

/-- In an open session the lane then takes a turn. -/
lemma turn_of_isReady (hc : s.closed = false) {source : String}
    (h : (s.lane source).isReady s.clock s.closed = true) : s.turn source ≠ none := by
  rw [Lane.isReady, hc] at h
  rw [Session.turn]
  split at h
  · rename_i delivery hwork
    rw [hwork]
    simpa using h
  · rename_i hwork
    rw [hwork]
    cases hqueue : (s.lane source).queue with
    | nil => simp [hqueue] at h
    | cons message queue => cases message <;> simp

namespace Cascading

/-- What the lane of an open session uses up in its turn. -/
lemma potential_turn (h : s.Cascading t) (ht : t.Ordered) (hc : s.closed = false) {source : String}
    {turn : Turn} (hturn : s.turn source = some turn) :
    t.lanesCost (s.apply (.advance (.lane source))) + (1 + turn.records.length)
      ≤ t.lanesCost s := by
  set m : Move := .advance (.lane source)
  have hstep := s.step_apply m
  have hposted : s.posted m = s.postsOf turn.completions := by
    have hopen : s.posted m = if s.closed then [] else s.postsOf (s.completions m) := rfl
    rw [hopen, if_neg (by simp [hc]), completions, hturn]
    rfl
  have hw : (s.lane source).weight ≠ 0 := by
    intro hzero
    obtain ⟨hqueue, hwork⟩ := Lane.isIdle_iff.mpr hzero
    simp [Session.turn, hqueue, hwork] at hturn
  obtain ⟨index, hfind⟩ := h.found_of_weight ht hw
  have hwork : ((s.apply m).lane source).work = turn.work := by
    rw [work_apply_lane, if_neg (by simp [hc]), hturn]
  have hcost : t.workCost turn.work
      + (1 + turn.records.length + t.postsCost (s.postsOf turn.completions))
        ≤ t.workCost (s.lane source).work + (s.taken source m).length * t.worth source :=
    h.turn_cost ht hturn
  have hlength : ∀ other, (s.lane other).queue.length * t.worth other
      + (postsTo other (s.posted m)).length * t.worth other
        = (s.taken other m).length * t.worth other
          + ((s.apply m).lane other).queue.length * t.worth other := by
    intro other
    have hqueue := congrArg List.length (hstep.queue other)
    rw [List.length_append, List.length_append] at hqueue
    rw [← Nat.add_mul, ← Nat.add_mul, hqueue]
  have hspent := t.lanesCost_mover s (s.apply m) (s.posted m)
    (1 + turn.records.length + t.postsCost (s.posted m)) hfind
    (by
      have hmover := hlength source
      rw [Tree.laneCost, Tree.laneCost, hwork]
      rw [← hposted] at hcost
      omega)
    (fun other hne => by
      have hm : m ≠ .advance (.lane other) := fun heq => hne (by simpa [m] using heq.symm)
      have hother := hlength other
      rw [taken_of_ne s hm] at hother
      rw [Tree.laneCost, Tree.laneCost, hstep.work other hm]
      simp only [List.length_nil, Nat.zero_mul] at hother
      omega)
  omega

/-- What the lane of a closed session drops is used up. -/
lemma potential_dropped (h : s.Cascading t) (ht : t.Ordered) {source : String}
    (hw : (s.lane source).weight ≠ 0) : t.lanesCost (s.dropped source) + 1 ≤ t.lanesCost s := by
  obtain ⟨index, hfind⟩ := h.found_of_weight ht hw
  have hspent := t.lanesCost_mover s (s.dropped source) [] 1 hfind
    (by
      have hpos : 0 < t.worth source := by
        rw [Tree.worth_eq hfind]
        exact t.reach_pos index
      rw [lane_dropped, if_pos rfl, Tree.laneCost, Tree.laneCost, Lane.shed]
      cases hwork : (s.lane source).work with
      | some delivery =>
          simp only [Option.isSome_some, if_true, Tree.workCost, Tree.stepCost]
          omega
      | none =>
          cases hqueue : (s.lane source).queue with
          | nil => simp [Lane.weight, hwork, hqueue] at hw
          | cons message queue =>
              simp only [Option.isSome_none, Bool.false_eq_true, if_false, List.tail_cons,
                List.length_cons, Nat.add_mul]
              omega)
    (fun other hne => by
      rw [lane_dropped, if_neg (Ne.symm hne)]
      exact Nat.le_add_right _ _)
  simpa using hspent

/-- The move of a lane. -/
lemma potential_lane (h : s.Cascading t) (ht : t.Ordered) (source : String) :
    t.potential (s.apply (.advance (.lane source)))
        + (s.records (.advance (.lane source))).length + s.turns (.advance (.lane source))
      ≤ t.potential s := by
  have hone := s.turns_le_one (.advance (.lane source))
  have hidle : (s.lane source).isReady s.clock s.closed = false →
      s.turns (.advance (.lane source)) = 0 := fun hrest =>
    turns_advance fun hready => by
      rw [isReady_lane h.keys hready] at hrest
      cases hrest
  rw [Tree.potential, Tree.potential, h.loads_lane ht source]
  cases hc : s.closed with
  | true =>
      have hrecords : s.records (.advance (.lane source)) = [] := by simp [records, hc]
      rw [hrecords, apply_lane_of_closed hc]
      by_cases hw : (s.lane source).weight = 0
      · have hrest : (s.lane source).isReady s.clock s.closed = false := by
          by_contra hready
          exact weight_of_isReady (by simpa using hready) hw
        rw [dropped, if_pos hw, hidle hrest]
        simp
      · have hspent := h.potential_dropped ht hw
        simp only [List.length_nil]
        omega
  | false =>
      cases hturn : s.turn source with
      | none =>
          have hrecords : s.records (.advance (.lane source)) = [] := by simp [records, hturn]
          have hrest : (s.lane source).isReady s.clock s.closed = false := by
            by_contra hready
            exact turn_of_isReady hc (by simpa using hready) hturn
          rw [hrecords, apply_lane_of_rest hc hturn, hidle hrest]
          simp
      | some turn =>
          have hrecords : s.records (.advance (.lane source)) = turn.records := by
            simp [records, hc, hturn]
          have hspent := h.potential_turn ht hc hturn
          rw [hrecords]
          omega

/-- Lanes that only take messages cost more by what these are worth. -/
lemma lanesCost_passes {posts : List (String × Message)} {written : List Record} {u : Session}
    (h : s.Passes posts written u) : t.lanesCost u ≤ t.lanesCost s + t.postsCost posts := by
  have hspent := t.lanesCost_le s u posts (fun _ => 0) fun source => by
    rw [h.lane, queued, Tree.laneCost, Tree.laneCost]
    simp only [List.length_append, Nat.add_mul]
    omega
  simpa using hspent

/-- The first move of a load. -/
lemma potential_beginLoad (h : s.Cascading t) {load : Load} (hl : load ∈ s.loads)
    (ha : load.answer = none) :
    t.potential (s.beginLoad load) + 2 ≤ t.potential s ∧ (s.beginRecords load).length ≤ 1 := by
  have hlanes := lanesCost_passes (t := t) (passes_beginLoad hl)
  have hdrop : ∀ {u : Session}, u.loads = s.loads → u.tickets = s.tickets →
      t.loadsCost (u.dropLoad load.ticket).loads + 2 ≤ t.loadsCost s.loads := by
    intro u hloads htickets
    have hcost := loadsCost_dropLoad (t := t) (h.numbered.congr hloads htickets)
      (hloads ▸ hl : load ∈ u.loads)
    rw [hloads, Tree.loadCost, ha] at hcost
    dsimp only at hcost
    omega
  have hloads : t.loadsCost (s.beginLoad load).loads + 2 ≤ t.loadsCost s.loads := by
    rw [beginLoad]
    split
    · exact hdrop rfl rfl
    · rename_i e he
      split
      · exact hdrop rfl rfl
      · rename_i provider hprovider
        split_ifs
        · exact hdrop rfl rfl
        · exact hdrop rfl rfl
        · obtain ⟨u, arrival, result, -, hkept, htickets, hask⟩ :=
            exists_ask_eq (s.setState load.provider .running) load.ticket provider
              (s.loadRequest e provider)
          have hanswer := loadsCost_setAnswer (t := t) (h.numbered.congr hkept htickets)
            (hkept ▸ hl : load ∈ u.loads) ha arrival result
          rw [hkept] at hanswer
          rw [hask]
          exact hanswer.le
  refine ⟨?_, ?_⟩
  · rw [Tree.postsCost_nil] at hlanes
    rw [Tree.potential, Tree.potential]
    omega
  · rw [beginRecords]
    split
    · simp
    · split_ifs <;> simp

/-- The last move of a load. -/
lemma potential_endLoad (h : s.Cascading t) (ht : t.Ordered) {load : Load} (hl : load ∈ s.loads)
    {arrival : Nat} {result : LoadResult} (ha : load.answer = some (arrival, result)) :
    t.potential (s.endLoad load result) + 1 ≤ t.potential s := by
  have hlanes := lanesCost_passes (t := t) (passes_endLoad hl result)
  have hposts : t.postsCost (if s.closed then []
      else s.postsOf (s.loadCompletion load.provider result)) ≤ 2 * t.reach 0 := by
    split_ifs
    · simp
    · rw [loadCompletion]
      cases he : s.tree.entity? load.provider with
      | none => simp [postsOf]
      | some e =>
          have hevents := h.messages_cost ht
            (c := ⟨load.provider, (outcomeOf e result).1.raised.map (·, some (outcomeOf e result).2)⟩)
            (by rw [List.length_map]; exact raised_length _)
          have hreach := t.reach_anti (Nat.zero_le load.provider)
          simp only [postsOf, List.flatMap_singleton] at hevents ⊢
          omega
  have hcost := loadsCost_dropLoad (t := t) h.numbered hl
  rw [← endLoad_loads load result, Tree.loadCost, ha] at hcost
  dsimp only at hcost
  rw [Tree.potential, Tree.potential]
  omega

/-- The move of a load. -/
lemma potential_load (h : s.Cascading t) (ht : t.Ordered) (ticket : Nat) :
    t.potential (s.apply (.advance (.load ticket)))
        + (s.records (.advance (.load ticket))).length + s.turns (.advance (.load ticket))
      ≤ t.potential s := by
  have hone := s.turns_le_one (.advance (.load ticket))
  show t.potential (s.advanceLoad ticket) + _ + _ ≤ _
  rw [advanceLoad, records]
  cases hfind : s.loads.find? fun load => load.ticket = ticket with
  | none =>
      have hrest : s.turns (.advance (.load ticket)) = 0 := turns_advance fun hready => by
        simp only [ready, List.mem_append, List.mem_map, List.mem_filter] at hready
        obtain (⟨_, _, heq⟩ | ⟨load, ⟨hmem, -⟩, heq⟩) | ⟨_, _, heq⟩ := hready
        · cases heq
        · cases heq
          simpa using List.find?_eq_none.mp hfind load hmem
        · cases heq
      simp [hrest]
  | some load =>
      have hl : load ∈ s.loads := List.mem_of_find?_eq_some hfind
      obtain rfl : load.ticket = ticket := by simpa using List.find?_some hfind
      dsimp only
      cases ha : load.answer with
      | none =>
          obtain ⟨hspent, hrecords⟩ := h.potential_beginLoad hl ha
          dsimp only
          omega
      | some answer =>
          obtain ⟨arrival, result⟩ := answer
          dsimp only
          split_ifs with harrived
          · have hspent := h.potential_endLoad ht hl ha
            simp only [List.length_nil]
            omega
          · have hrest : s.turns (.advance (.load load.ticket)) = 0 := turns_advance fun hready => by
              have hisReady := isReady_load h.numbered hl hready
              simp [Load.isReady, ha, harrived] at hisReady
            simp [hrest]

/-- The moves of a session that are not those of lanes or loads do nothing: there are no timers, and
letting time pass costs nothing. -/
lemma potential_timer (h : s.Cascading t) (ht : t.Ordered) (generation : Nat) :
    t.potential (s.apply (.advance (.timer generation)))
        + (s.records (.advance (.timer generation))).length
        + s.turns (.advance (.timer generation)) ≤ t.potential s := by
  have htimers := h.timers_eq_nil ht
  have hrest : s.turns (.advance (.timer generation)) = 0 :=
    turns_advance fun hready => by simp [ready, htimers] at hready
  show t.potential (s.advanceTimer generation) + _ + _ ≤ _
  rw [hrest, advanceTimer, Ticker.timer?, htimers]
  exact le_rfl

end Cascading

/-! ### What the host adds -/

/-- The event of a host is worth one event at the first entity at most. -/
lemma dispatched_cost (t : Tree) (s : Session) (event : Event) :
    t.postsCost (s.dispatched event) ≤ t.reach 0 := by
  rw [dispatched]
  split
  · simpa [Tree.postsCost] using t.worth_le event.source
  · simp

/-- The events that the host raises by hand are worth two events at the first entity at most. -/
lemma Cascading.completed_cost (h : s.Cascading t) (ht : t.Ordered) (id : String)
    (outcome : LifecycleEvent) (payload : Option Json) :
    t.postsCost (s.postsOf (s.completions (.complete id outcome payload))) ≤ 2 * t.reach 0 := by
  rw [completions]
  split
  · simp [postsOf]
  · rename_i index e _
    split
    · simp [postsOf]
    · have hevents := h.messages_cost ht (c := ⟨index, outcome.raised.map (·, payload)⟩)
        (by rw [List.length_map]; exact raised_length outcome)
      have hreach := t.reach_anti (Nat.zero_le index)
      simp only [postsOf, List.flatMap_singleton] at hevents ⊢
      omega

/-- What a move of the host puts on lanes is worth two events at the first entity at most. -/
lemma Cascading.posted_cost (h : s.Cascading t) (ht : t.Ordered) {m : Move}
    (hhost : m.isInternal = false) : t.postsCost (s.posted m) ≤ 2 * t.reach 0 := by
  have hone : ∀ {posts}, t.postsCost posts ≤ t.reach 0 → t.postsCost posts ≤ 2 * t.reach 0 :=
    fun hcost => hcost.trans (Nat.le_mul_of_pos_left _ Nat.two_pos)
  unfold posted
  split_ifs
  · simp
  cases m with
  | advance task => cases hhost
  | elapse moment => cases hhost
  | dispatch event => exact hone (s.dispatched_cost t event)
  | raise source name payload =>
      dsimp only
      unfold raised
      split
      · simp
      · exact hone (s.dispatched_cost t _)
  | complete id outcome payload => exact h.completed_cost ht id outcome payload
  | load id => simp [completions, postsOf]
  | begin id => simp [completions, postsOf]
  | teardown => simp [completions, postsOf]

/-- Of the moves of the host only `load` adds to the loads, and one at most. -/
lemma loads_apply_host {m : Move} (hhost : m.isInternal = false) :
    (s.apply m).loads = s.loads
      ∨ ∃ id provider, m = .load id ∧ s.apply m = s.acceptLoad provider := by
  have hdispatch : ∀ event, (s.accepted (s.dispatch event)).loads = s.loads := by
    intro event
    rw [dispatch]
    split_ifs
    · rfl
    · rfl
    · rfl
    · exact s.enqueue_loads _ _
  cases m with
  | advance task => cases hhost
  | elapse moment => cases hhost
  | dispatch event => exact .inl (hdispatch event)
  | raise source name payload =>
      left
      show (s.accepted (s.raise source name payload)).loads = s.loads
      unfold raise
      split
      · rfl
      · exact hdispatch _
  | load id =>
      show (s.accepted (s.load id)).loads = s.loads
        ∨ ∃ id' provider, Move.load id = .load id' ∧ s.accepted (s.load id) = s.acceptLoad provider
      rw [load]
      split_ifs
      · exact .inl rfl
      · split
        · exact .inl rfl
        · split_ifs
          · exact .inl rfl
          · exact .inr ⟨id, _, rfl, rfl⟩
  | begin id =>
      left
      show (s.accepted (s.begin id)).loads = s.loads
      rw [begin]
      split
      · rfl
      · split <;> rfl
  | complete id outcome payload =>
      left
      show (s.accepted (s.complete id outcome payload)).loads = s.loads
      rw [complete]
      split
      · rfl
      · split
        · rfl
        · exact raiseLifecycle_loads _ _ _
  | teardown => exact .inl s.teardown_loads

/-- What a move of the host puts on lanes, and what it adds to the loads. -/
lemma Cascading.host_cost (h : s.Cascading t) (ht : t.Ordered) {m : Move}
    (hhost : m.isInternal = false) :
    t.postsCost (s.posted m) + t.loadsCost (s.apply m).loads
      ≤ t.loadsCost s.loads + (3 + 2 * t.reach 0) := by
  have hposts := h.posted_cost ht hhost
  obtain hkept | ⟨id, provider, rfl, haccepted⟩ := s.loads_apply_host hhost
  · rw [hkept]
    omega
  · have hnone : s.posted (.load id) = [] := s.posted_eq_nil rfl rfl
    have hloads : t.loadsCost (s.acceptLoad provider).loads
        = t.loadsCost s.loads + (3 + 2 * t.reach 0) := by
      simp [acceptLoad, Tree.loadsCost, Tree.loadCost]
    rw [hnone, Tree.postsCost_nil, haccepted, hloads, Nat.zero_add]

namespace Cascading

/-- A move of the host. -/
lemma potential_host (h : s.Cascading t) (ht : t.Ordered) {m : Move}
    (hhost : m.isInternal = false) :
    t.potential (s.apply m) ≤ t.potential s + (3 + 2 * t.reach 0) := by
  have hcost := h.host_cost ht hhost
  have hlanes : t.lanesCost (s.apply m) ≤ t.lanesCost s + t.postsCost (s.posted m) := by
    by_cases hteardown : m = .teardown
    · subst hteardown
      have hsame : t.lanesCost s.teardown = t.lanesCost s := by
        simp only [Tree.lanesCost, teardown_lane]
      exact hsame.le.trans (Nat.le_add_right _ _)
    · refine lanesCost_passes (s.passes_apply (fun source heq => ?_) hteardown)
      rw [heq] at hhost
      cases hhost
  rw [Tree.potential, Tree.potential]
  omega

/-- **What a move uses up**: the records that it writes, and one for the move if it is that of a task
that is ready, come out of the potential, to which the host alone adds. -/
theorem potential_apply (h : s.Cascading t) (ht : t.Ordered) (m : Move) :
    t.potential (s.apply m) + (s.records m).length + s.turns m ≤ t.potential s + t.gain m := by
  have hhost : m.isInternal = false → s.records m = [] → (∀ task, m ≠ .advance task) →
      t.potential (s.apply m) + (s.records m).length + s.turns m ≤ t.potential s + t.gain m := by
    intro hm hrecords htask
    have hspent := h.potential_host ht hm
    rw [hrecords, turns_of_ne_advance htask, Tree.gain, if_neg (by simp [hm])]
    exact hspent
  cases m with
  | advance task =>
      have hgain : t.gain (.advance task) = 0 := rfl
      rw [hgain]
      cases task with
      | lane source => exact h.potential_lane ht source
      | load ticket => exact h.potential_load ht ticket
      | timer generation => exact h.potential_timer ht generation
  | elapse moment => exact le_of_eq (by rw [turns_of_ne_advance (by simp)]; rfl)
  | dispatch event => exact hhost rfl rfl (by simp)
  | raise source name payload => exact hhost rfl rfl (by simp)
  | load id => exact hhost rfl rfl (by simp)
  | begin id => exact hhost rfl rfl (by simp)
  | complete id outcome payload => exact hhost rfl rfl (by simp)
  | teardown => exact hhost rfl rfl (by simp)

/-- **What a run uses up**: its records and the moves of ready tasks, against what the host adds. -/
theorem potential_run (h : s.Cascading t) (ht : t.Ordered) (moves : List Move) :
    t.potential (s.run moves) + (s.run moves).journal.length + s.turnCount moves
      ≤ t.potential s + s.journal.length
        + (3 + 2 * t.reach 0) * moves.countP fun m => !m.isInternal := by
  induction moves generalizing s with
  | nil => simp [turnCount]
  | cons m moves ih =>
      have hfirst := h.potential_apply ht m
      have hrest := ih (h.apply ht m)
      have hjournal := congrArg List.length (s.step_apply m).journal
      rw [List.length_append] at hjournal
      have hgain : t.gain m + (3 + 2 * t.reach 0) * moves.countP (fun m => !m.isInternal)
          = (3 + 2 * t.reach 0) * (m :: moves).countP fun m => !m.isInternal := by
        rw [List.countP_cons, Tree.gain]
        cases m.isInternal
        · simp only [Bool.false_eq_true, if_false, Bool.not_false, if_true]
          ring
        · simp
      rw [run_cons, turnCount, ← hgain]
      omega

end Cascading

end Session

end Componentry

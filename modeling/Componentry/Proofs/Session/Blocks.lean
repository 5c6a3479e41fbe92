import Mathlib.Tactic
import Componentry.Proofs.Session.Run
/-!
# The blocks of a lane

The records of one source come in blocks, one for each message that its lane takes.  `Tree.Block`
says what the block of a message is: for an event either the one record that its source drops it, or
a record that it was delivered and then one record for every bound action, in the order of the
bindings; for a repetition records of the one action only.  `Tree.Underway` is the beginning of a
block, as the delivery under way has left it.

`inBlocks_apply` is the invariant: whatever move is made, the records of a source so far are the
blocks of the messages that its lane has done with, in the order in which they have arrived, and the
beginning of the block of the delivery under way.  `run_inBlocks` draws the conclusion for a run.
-/

namespace Componentry

/-- Why a source may drop an event. -/
def SkipReason.OfSource : SkipReason → Prop
  | .sourceSuppressed | .sourceDisabled | .gateError _ => True
  | .disabled | .conditionFalse | .loadInProgress => False

/-- What may become of a bound action. -/
def Outcome.OfAction : Outcome → Prop
  | .executed | .failed _ => True
  | .skipped .disabled | .skipped .conditionFalse | .skipped (.gateError _) => True
  | .delivered _ | .skipped .sourceSuppressed | .skipped .sourceDisabled => False
  | .skipped .loadInProgress => False

namespace Tree

/-- A record of what became of a bound action on an event. -/
structure Reports (tree : Tree) (event : Event) (action : Nat) (record : Record) : Prop where
  source : record.source = event.source
  event : record.event = event.name
  action : ∃ id, tree.idAt? action = some id ∧ record.action = some id
  outcome : record.outcome.OfAction

/-- A step that is planned for a bound action. -/
def Plans (tree : Tree) (action : Nat) : PlannedStep → Prop
  | .run run => run.action = action ∧ tree.idAt? action = some run.actionId
  | .skip actionId reason => tree.idAt? action = some actionId ∧ (Outcome.skipped reason).OfAction

/-- The records of an event that comes to the bindings of an entity. -/
inductive Answers (tree : Tree) (index : Nat) (event : Event) : List Record → Prop
  /-- The source drops the event. -/
  | dropped (reason : SkipReason) (why : reason.OfSource) :
      Answers tree index event [⟨event.source, event.name, none, .skipped reason⟩]
  /-- The event is delivered, and every bound action follows. -/
  | delivered (reports : List Record)
      (reported : List.Forall₂ (tree.Reports event) (tree.boundActions index event.name) reports) :
      Answers tree index event
        (⟨event.source, event.name, none, .delivered (tree.boundActions index event.name).length⟩
          :: reports)

/-- The records that a message gives rise to. -/
inductive Block (tree : Tree) : Message → List Record → Prop
  /-- The event comes to the bindings of the entity that its source addresses. -/
  | delivered (event : Event) (index : Nat) (records : List Record)
      (found : tree.find? event.source = some index)
      (answers : tree.Answers index event records) : Block tree (.deliver event) records
  /-- The source drops the repetition. -/
  | ignored (action : Nat) (event : Event) : Block tree (.refire action event) []
  /-- The action is repeated as often as it is bound. -/
  | repeated (action : Nat) (event : Event) (index : Nat) (reports : List Record)
      (found : tree.find? event.source = some index)
      (reported : List.Forall₂ (tree.Reports event)
        ((tree.boundActions index event.name).filter (· = action)) reports) :
      Block tree (.refire action event) reports

/-- The records of a delivery under way: that of the event, and those of the actions before the
next one that runs. -/
inductive Underway (tree : Tree) (delivery : Delivery) : List Record → Prop
  | mk (index : Nat) (done todo : List Nat) (reports : List Record)
      (found : tree.find? delivery.event.source = some index)
      (bound : tree.boundActions index delivery.event.name = done ++ todo)
      (reported : List.Forall₂ (tree.Reports delivery.event) done reports)
      (planned : List.Forall₂ tree.Plans todo (.run delivery.next :: delivery.rest)) :
      Underway tree delivery
        (⟨delivery.event.source, delivery.event.name, none,
            .delivered (tree.boundActions index delivery.event.name).length⟩ :: reports)

/-- The records of a message that a lane has taken, given the delivery that is under way now. -/
def Progress (tree : Tree) (message : Message) (records : List Record) : Option Delivery → Prop
  | none => tree.Block message records
  | some delivery => message = .deliver delivery.event ∧ tree.Underway delivery records

end Tree

/-! ### Planning -/

/-- What a function gives for every element of a list stands beside that element. -/
lemma forall₂_filterMap {α β : Type} {R : α → β → Prop} {f : α → Option β} {xs : List α}
    (h : ∀ x ∈ xs, ∃ y, f x = some y ∧ R x y) : List.Forall₂ R xs (xs.filterMap f) := by
  induction xs with
  | nil => exact .nil
  | cons x xs ih =>
      obtain ⟨y, hy, hr⟩ := h x List.mem_cons_self
      rw [List.filterMap_cons_some hy]
      exact .cons hr (ih fun x' hx' => h x' (List.mem_cons_of_mem x hx'))

namespace Session

variable {s : Session} {tree : Tree}

lemma dropReason_ofSource {source : Entity} {scope : Scope} {reason : SkipReason}
    (h : s.dropReason? source scope = some reason) : reason.OfSource := by
  rw [dropReason?] at h
  split_ifs at h
  · cases h
    trivial
  · split at h <;> cases h <;> trivial

lemma skipReason_ofAction {action : Entity} {scope : Scope} {reason : SkipReason}
    (h : s.skipReason? action scope = some reason) : (Outcome.skipped reason).OfAction := by
  rw [skipReason?] at h
  split at h
  · cases h; trivial
  · cases h; trivial
  · split at h <;> cases h <;> trivial

/-- The step of a bound action that is an entity. -/
lemma planStep_plans (h : tree.SameStructure s.tree) (source : Entity) (scope : Scope)
    {action : Nat} (ha : action < tree.size) :
    ∃ step, s.planStep source scope action = some step ∧ tree.Plans action step := by
  rw [← h.size_eq] at ha
  obtain ⟨e, he⟩ := Tree.lt_size_iff.mp ha
  have hid : tree.idAt? action = some e.id := by
    rw [← h.idAt?_eq]
    exact Tree.idAt?_of_entity? he
  refine ⟨_, by rw [planStep, he, Option.map_some], ?_⟩
  cases hr : s.skipReason? e scope with
  | none => exact ⟨rfl, hid⟩
  | some reason => exact ⟨hid, skipReason_ofAction hr⟩

/-- What is going to happen to an event whose source exists: the source drops it, or a step is
planned for every bound action. -/
lemma plan_cases (h : tree.SameStructure s.tree) (ht : tree.Sound) {event : Event} {index : Nat}
    (hf : tree.find? event.source = some index) (only : Option Nat) :
    (∃ reason, s.plan event only = some (.dropped reason) ∧ reason.OfSource)
      ∨ ∃ steps, s.plan event only = some (.steps steps)
        ∧ List.Forall₂ tree.Plans
          ((tree.boundActions index event.name).filter fun action => only.all (· = action))
          steps := by
  have hlt : index < s.tree.size := by
    rw [h.size_eq]
    exact Tree.lt_size_of_idAt? (ht.held _ _ hf)
  obtain ⟨source, hs⟩ := Tree.lt_size_iff.mp hlt
  cases hr : s.dropReason? source { tree := s.tree, event := some event } with
  | some reason =>
      have hplan : s.plan event only = some (.dropped reason) := by
        simp only [plan, h.find?_eq, hf, hs, hr, Option.bind_eq_bind, Option.bind_some]
        rfl
      exact .inl ⟨reason, hplan, dropReason_ofSource hr⟩
  | none =>
      have hplan : s.plan event only
          = some (.steps (((tree.boundActions index event.name).filter fun action =>
            only.all (· = action)).filterMap
              (s.planStep source { tree := s.tree, event := some event }))) := by
        simp only [plan, h.find?_eq, hf, hs, hr, ← h.boundActions_eq index event.name,
          Option.bind_eq_bind, Option.bind_some]
        rfl
      refine .inr ⟨_, hplan, forall₂_filterMap fun action ha => ?_⟩
      exact planStep_plans h source _ (ht.lt_size_of_mem_boundActions (List.mem_of_mem_filter ha))

/-! ### The records of a turn -/

/-- An execution writes the one record of its action. -/
lemma execution_reports (h : tree.SameStructure s.tree) (event : Event) {action : Nat} {id : String}
    (hid : tree.idAt? action = some id) :
    ∃ record, (s.execution action event).records = [record] ∧ tree.Reports event action record := by
  have hid' : s.tree.idAt? action = some id := by rw [h.idAt?_eq, hid]
  obtain ⟨e, he, rfl⟩ := Tree.idAt?_eq_some.mp hid'
  have hrecords : (s.execution action event).records
      = [executionRecord event e.id (s.ending e event).outcome] := by
    rw [execution]
    rw [he]
  refine ⟨_, hrecords, rfl, rfl, ⟨e.id, hid, rfl⟩, ?_⟩
  change (s.ending e event).outcome.OfAction
  rw [ending]
  cases (s.carryOut (s.verdict e event)).2 <;> trivial

lemma skipRecord_reports (event : Event) {action : Nat} {actionId : String} {reason : SkipReason}
    (h : tree.Plans action (.skip actionId reason)) :
    tree.Reports event action (skipRecord event actionId reason) :=
  ⟨rfl, rfl, ⟨actionId, h.1, rfl⟩, h.2⟩

/-- Going on with the steps that are left: either the next action that runs is under way, or the
block is complete. -/
lemma progress_workFrom (s : Session) {event : Event} {index : Nat} (done todo : List Nat)
    (reports : List Record) {steps : List PlannedStep}
    (hf : tree.find? event.source = some index)
    (hb : tree.boundActions index event.name = done ++ todo)
    (hr : List.Forall₂ (tree.Reports event) done reports)
    (hp : List.Forall₂ tree.Plans todo steps) :
    tree.Progress (.deliver event)
      (⟨event.source, event.name, none, .delivered (tree.boundActions index event.name).length⟩
        :: (reports ++ skipRecords event steps)) (s.workFrom event steps) := by
  induction steps generalizing done todo reports with
  | nil =>
      obtain rfl := List.forall₂_nil_right_iff.mp hp
      rw [List.append_nil] at hb
      rw [skipRecords, List.append_nil]
      exact .delivered event index _ hf (.delivered reports (hb ▸ hr))
  | cons step rest ih =>
      obtain ⟨action, todo', hplans, hp', rfl⟩ := List.forall₂_cons_right_iff.mp hp
      cases step with
      | run next =>
          rw [skipRecords, List.append_nil]
          exact ⟨rfl, .mk index done (action :: todo') reports hf hb hr (.cons hplans hp')⟩
      | skip actionId reason =>
          have hskip := skipRecord_reports event hplans
          have h := ih (done ++ [action]) todo' (reports ++ [skipRecord event actionId reason])
            (by simpa using hb)
            (List.rel_append hr (.cons hskip .nil)) hp'
          simpa [workFrom, skipRecords] using h

/-- The turn that takes an event begins its block. -/
lemma deliverTurn_progress (h : tree.SameStructure s.tree) (ht : tree.Sound) {event : Event}
    (hf : (tree.find? event.source).isSome) :
    tree.Progress (.deliver event) (s.deliverTurn event).records (s.deliverTurn event).work := by
  obtain ⟨index, hf⟩ := Option.isSome_iff_exists.mp hf
  rw [deliverTurn]
  obtain ⟨reason, hplan, hwhy⟩ | ⟨steps, hplan, hsteps⟩ := plan_cases h ht hf none
  · rw [hplan]
    exact .delivered event index _ hf (.dropped reason hwhy)
  · rw [hplan]
    have hall : (tree.boundActions index event.name).filter
        (fun action => (none : Option Nat).all (· = action))
          = tree.boundActions index event.name := by
      simp
    rw [hall] at hsteps
    have hprogress := s.progress_workFrom [] _ [] hf rfl .nil hsteps
    dsimp only
    rw [← hsteps.length_eq]
    exact hprogress

/-- The turn that goes on with a delivery goes on with its block. -/
lemma nextTurn_progress (h : tree.SameStructure s.tree) {delivery : Delivery}
    {records : List Record} (hu : tree.Underway delivery records) :
    tree.Progress (.deliver delivery.event) (records ++ (s.nextTurn delivery).records)
      (s.nextTurn delivery).work := by
  obtain ⟨index, done, todo, reports, hf, hb, hr, hp⟩ := hu
  obtain ⟨action, todo', ⟨haction, hid⟩, hp', rfl⟩ := List.forall₂_cons_right_iff.mp hp
  rw [← haction] at hid
  obtain ⟨record, hrecords, hreport⟩ := execution_reports h delivery.event hid
  have hturn : (s.nextTurn delivery).records
      = record :: skipRecords delivery.event delivery.rest := by
    rw [nextTurn, Emission.append, hrecords]
    rfl
  have hprogress := s.progress_workFrom (done ++ [action]) todo' _ hf (by simpa using hb)
    (List.rel_append hr (.cons (haction ▸ hreport) .nil)) hp'
  have hwork : (s.nextTurn delivery).work = s.workFrom delivery.event delivery.rest := rfl
  rw [hturn, hwork]
  simpa using hprogress

/-- The records of the steps of a repetition. -/
lemma refireEmissions_reports (hc : s.closed = false) (h : tree.SameStructure s.tree)
    (event : Event) {actions : List Nat} {steps : List PlannedStep}
    (hp : List.Forall₂ tree.Plans actions steps) :
    List.Forall₂ (tree.Reports event) actions (s.refireEmissions event steps).records := by
  induction hp generalizing s with
  | nil => exact .nil
  | @cons action step actions steps hplans hp ih =>
      have hstep := emits_refireStep hc event step
      have hrest := ih (hstep.closed.trans hc) (h.trans hstep.tree)
      cases step with
      | run run =>
          obtain ⟨haction, hid⟩ := hplans
          rw [← haction] at hid
          obtain ⟨record, hrecords, hreport⟩ := execution_reports h event hid
          have hall : (s.refireEmissions event (.run run :: steps)).records = record ::
              ((s.refireStep event (.run run)).refireEmissions event steps).records := by
            rw [refireEmissions, Emission.append, refireEmission, hrecords]
            rfl
          rw [hall]
          exact .cons (haction ▸ hreport) hrest
      | skip actionId reason => exact .cons (skipRecord_reports event hplans) hrest

/-- The turn that takes a repetition writes its block. -/
lemma refireTurn_block (hc : s.closed = false) (h : tree.SameStructure s.tree) (ht : tree.Sound)
    (action : Nat) (event : Event) :
    tree.Block (.refire action event) (s.refireTurn action event).records := by
  rw [refireTurn]
  cases hf : tree.find? event.source with
  | none =>
      have hplan : s.plan event (some action) = none := by
        rw [plan]
        rw [h.find?_eq, hf]
        rfl
      rw [hplan]
      exact .ignored action event
  | some index =>
      obtain ⟨reason, hplan, _⟩ | ⟨steps, hplan, hsteps⟩ := plan_cases h ht hf (some action)
      · rw [hplan]
        exact .ignored action event
      · have hall : (fun other => (some action).all (· = other))
            = fun other : Nat => decide (other = action) := by
          funext other
          simp [eq_comm]
        rw [hall] at hsteps
        rw [hplan]
        exact .repeated action event index _ hf (refireEmissions_reports hc h event hsteps)

/-- **The records of a turn** begin, continue or complete the block of the message at hand. -/
lemma turn_progress (hc : s.closed = false) (h : tree.SameStructure s.tree) (ht : tree.Sound)
    (hs : s.Sourced) {source : String} {turn : Turn} (hturn : s.turn source = some turn) :
    match (s.lane source).work, (s.lane source).queue with
    | some delivery, _ => ∀ records, tree.Underway delivery records →
        tree.Progress (.deliver delivery.event) (records ++ turn.records) turn.work
    | none, [] => False
    | none, message :: _ => tree.Progress message turn.records turn.work := by
  have ho : tree.SameStructure (s.opened source).tree := by rw [opened_tree]; exact h
  have hco : (s.opened source).closed = false := by rw [opened_closed, hc]
  rw [Session.turn] at hturn
  cases hw : (s.lane source).work with
  | some delivery =>
      simp only [hw] at hturn
      split_ifs at hturn
      cases hturn
      exact fun records hu => nextTurn_progress h hu
  | none =>
      cases hq : (s.lane source).queue with
      | nil => simp [hw, hq] at hturn
      | cons message queue =>
          have hm : message ∈ (s.lane source).queue := hq ▸ List.mem_cons_self
          simp only [hw, hq] at hturn
          cases message with
          | deliver event =>
              have hf := hs.found source event hm
              rw [h.find?_eq, ← hs.queue source _ hm] at hf
              cases hturn
              exact deliverTurn_progress ho ht hf
          | refire action event =>
              cases hturn
              have hb := refireTurn_block hco ho ht action event
              dsimp only
              rw [refireTurn_work]
              exact hb

/-! ### The records of a source -/

end Session

/-- Whether a record says that the load of a suppressed provider was refused. -/
def Record.isRefusedLoad (record : Record) : Bool := record = Session.refusedRecord record.source

/-- The event of the delivery under way on a lane, as the message that brought it. -/
def Lane.current (lane : Lane) : List Message :=
  lane.work.toList.map fun delivery => .deliver delivery.event

/-- The records about a source in blocks: those of the messages that its lane has done with, and the
part that the delivery under way has written. -/
structure Tree.InBlocks (tree : Tree) (lane : Lane) (arrivals : List Message)
    (records : List Record) (blocks : List (Message × List Record)) (part : List Record) :
    Prop where
  arrivals : arrivals = blocks.map Prod.fst ++ lane.current ++ lane.queue
  records : records = (blocks.map Prod.snd).flatten ++ part
  block : ∀ block ∈ blocks, tree.Block block.1 block.2
  part : match lane.work with
    | none => part = []
    | some delivery => tree.Underway delivery part

namespace Session

variable {s : Session} {tree : Tree}

/-- Whether a record counts for the lane of a source: the refusal of a load is left aside. -/
def countsFor (source : String) (m : Move) (record : Record) : Bool :=
  record.source = source ∧ ¬(m.isLoadTask = true ∧ record.isRefusedLoad = true)

/-- The records of a run that count for the lane of a source, in order. -/
def chronicle (s : Session) (source : String) (moves : List Move) : List Record :=
  ((s.signed moves).filter fun entry => countsFor source entry.1 entry.2).map Prod.snd

/-- The records of a move that count for the lane of a source. -/
def laneRecords (s : Session) (source : String) (m : Move) : List Record :=
  (s.written m).filter (countsFor source m)

lemma chronicle_cons (s : Session) (source : String) (m : Move) (moves : List Move) :
    s.chronicle source (m :: moves)
      = s.laneRecords source m ++ (s.apply m).chronicle source moves := by
  rw [chronicle, signed, List.filter_append, List.map_append, List.filter_map, List.map_map]
  simp [laneRecords, chronicle, Function.comp_def]

/-- A lane writes the records of its turn. -/
lemma laneRecords_turn (hc : s.closed = false) (hs : s.Sourced) {source : String} {turn : Turn}
    (hturn : s.turn source = some turn) :
    s.laneRecords source (.advance (.lane source)) = turn.records := by
  have hrecords : s.records (.advance (.lane source)) = turn.records := by
    simp [records, hc, hturn]
  rw [laneRecords, written_eq, hrecords, List.filter_eq_self]
  intro record hr
  simp [countsFor, hs.turn_source hturn hr, Move.isLoadTask]

/-- A load writes nothing but that it is refused. -/
lemma isRefusedLoad_of_mem {ticket : Nat} {record : Record}
    (h : record ∈ s.records (.advance (.load ticket))) : record.isRefusedLoad = true := by
  simp only [records] at h
  split at h
  · simp at h
  · split at h
    · rw [beginRecords] at h
      split at h
      · simp at h
      · split_ifs at h
        · rw [List.mem_singleton.mp h]
          simp [Record.isRefusedLoad, refusedRecord]
        · simp at h
    · simp at h

/-- No other move writes records about the source of a lane. -/
lemma laneRecords_of_ne (hs : s.Sourced) {source : String} {m : Move}
    (hm : m ≠ .advance (.lane source)) : s.laneRecords source m = [] := by
  rw [laneRecords, written_eq, List.filter_eq_nil_iff]
  intro record hr
  cases m with
  | advance task =>
      cases task with
      | lane mover =>
          have hne : mover ≠ source := fun h => hm (h ▸ rfl)
          simp only [records] at hr
          split_ifs at hr
          · simp at hr
          · cases hturn : s.turn mover with
            | none => simp [hturn] at hr
            | some turn =>
                rw [hturn] at hr
                simp [countsFor, hs.turn_source hturn hr, hne]
      | load ticket => simp [countsFor, Move.isLoadTask, isRefusedLoad_of_mem hr]
      | timer generation => simp [records] at hr
  | _ => simp [records] at hr

/-- What has become of the message at hand after a turn fits into the blocks. -/
lemma exists_inBlocks {lane : Lane} {arrivals : List Message} (message : Message)
    {records : List Record} (part : List Record) {blocks : List (Message × List Record)}
    (ha : arrivals = blocks.map Prod.fst ++ message :: lane.queue)
    (hr : records = (blocks.map Prod.snd).flatten ++ part)
    (hb : ∀ block ∈ blocks, tree.Block block.1 block.2)
    (hp : tree.Progress message part lane.work) :
    ∃ blocks part, tree.InBlocks lane arrivals records blocks part := by
  cases hw : lane.work with
  | none =>
      rw [hw] at hp
      refine ⟨blocks ++ [(message, part)], [], ?_, ?_, ?_, by rw [hw]⟩
      · simp [ha, Lane.current, hw]
      · simp [hr]
      · intro block hmem
        obtain hmem | hmem := List.mem_append.mp hmem
        · exact hb block hmem
        · rw [List.mem_singleton.mp hmem]
          exact hp
  | some delivery =>
      rw [hw] at hp
      obtain ⟨rfl, hu⟩ := hp
      refine ⟨blocks, part, ?_, hr, hb, by rw [hw]; exact hu⟩
      simp [ha, Lane.current, hw]

/-- The turn of a lane keeps the records of its source in blocks. -/
lemma inBlocks_turn (hc : s.closed = false) (h : tree.SameStructure s.tree) (ht : tree.Sound)
    (hs : s.Sourced) {source : String} {arrivals : List Message} {records : List Record}
    {blocks : List (Message × List Record)} {part : List Record}
    (hin : tree.InBlocks (s.lane source) arrivals records blocks part) {turn : Turn}
    (hturn : s.turn source = some turn) :
    ∃ blocks part, tree.InBlocks ((s.apply (.advance (.lane source))).lane source)
      (arrivals ++ s.arrived source (.advance (.lane source))) (records ++ turn.records)
      blocks part := by
  have hqueue := s.queue_append_arrived source (.advance (.lane source))
  have hwork := s.work_apply_lane source
  rw [if_neg (by simp [hc]), hturn] at hwork
  have hprogress := turn_progress hc h ht hs hturn
  have hpart := hin.part
  cases hw : (s.lane source).work with
  | some delivery =>
      -- The delivery under way goes on: nothing leaves the queue.
      rw [hw] at hprogress hpart
      rw [taken, hw, if_neg (by simp), List.nil_append] at hqueue
      refine exists_inBlocks (.deliver delivery.event) (part ++ turn.records) ?_ ?_ hin.block
        (hwork ▸ hprogress part hpart)
      · rw [← hqueue, hin.arrivals]
        simp [Lane.current, hw]
      · rw [hin.records, List.append_assoc]
  | none =>
      rw [hw] at hpart
      cases hq : (s.lane source).queue with
      | nil =>
          rw [hw, hq] at hprogress
          exact hprogress.elim
      | cons message queue =>
          -- The first message of the queue begins a block of its own.
          rw [hw, hq] at hprogress
          rw [taken, hw, if_pos ⟨rfl, rfl⟩, hq] at hqueue
          have hrest : queue ++ s.arrived source (.advance (.lane source))
              = ((s.apply (.advance (.lane source))).lane source).queue := by
            simpa using hqueue
          refine exists_inBlocks message turn.records ?_ ?_ hin.block (hwork ▸ hprogress)
          · rw [← hrest, hin.arrivals]
            simp [Lane.current, hw, hq]
          · rw [hin.records, hpart, List.append_nil]

/-- **Every move keeps the records of a source in blocks.** -/
theorem inBlocks_apply (hc : s.closed = false) (h : tree.SameStructure s.tree) (ht : tree.Sound)
    (hs : s.Sourced) {source : String} {arrivals : List Message} {records : List Record}
    (hin : ∃ blocks part, tree.InBlocks (s.lane source) arrivals records blocks part) (m : Move) :
    ∃ blocks part, tree.InBlocks ((s.apply m).lane source) (arrivals ++ s.arrived source m)
      (records ++ s.laneRecords source m) blocks part := by
  obtain ⟨blocks, part, hin⟩ := hin
  by_cases hm : m = .advance (.lane source)
  · subst hm
    cases hturn : s.turn source with
    | none =>
        have harrived : s.arrived source (.advance (.lane source)) = [] := by
          simp [arrived_eq, posted, completions, hturn, postsOf]
        have hrecords : s.laneRecords source (.advance (.lane source)) = [] := by
          simp [laneRecords, written_eq, Session.records, hturn]
        rw [apply_lane_of_rest hc hturn, harrived, hrecords, List.append_nil, List.append_nil]
        exact ⟨blocks, part, hin⟩
    | some turn =>
        rw [laneRecords_turn hc hs hturn]
        exact inBlocks_turn hc h ht hs hin hturn
  · have hqueue := s.queue_append_arrived source m
    have hwork := (s.step_apply m).work source hm
    rw [s.taken_of_ne hm, List.nil_append] at hqueue
    rw [laneRecords_of_ne hs hm, List.append_nil]
    refine ⟨blocks, part, ?_, hin.records, hin.block, by rw [hwork]; exact hin.part⟩
    rw [← hqueue, hin.arrivals, Lane.current, Lane.current, hwork, List.append_assoc]

/-- The records of a source stay in blocks along a run. -/
theorem inBlocks_run (h : tree.SameStructure s.tree) (ht : tree.Sound) (hs : s.Sourced)
    {source : String} {arrivals : List Message} {records : List Record}
    (hin : ∃ blocks part, tree.InBlocks (s.lane source) arrivals records blocks part)
    {moves : List Move} (hc : s.closed = false) (hopen : .teardown ∉ moves) :
    ∃ blocks part, tree.InBlocks ((s.run moves).lane source)
      (arrivals ++ s.arrivals source moves) (records ++ s.chronicle source moves) blocks part := by
  induction moves generalizing s arrivals records with
  | nil => simpa [Session.arrivals, chronicle, signed] using hin
  | cons m moves ih =>
      have hm : m ≠ .teardown := fun h => hopen (h ▸ List.mem_cons_self)
      have hstep := (s.step_apply m).tree
      have hcm : (s.apply m).closed = false := by
        rw [closed_apply, hc]
        simpa using hm
      have hrest := ih (h.trans hstep) (hs.apply (h.sound ht) m)
        (inBlocks_apply hc h ht hs hin m) hcm fun hmem => hopen (List.mem_cons_of_mem m hmem)
      simpa [Session.arrivals, chronicle_cons] using hrest

/-- **The records of every source come in blocks**, one for each message that its lane has done
with, in the order in which the messages have arrived; the journal is what the moves have written,
and of it the refusals of loads alone are left aside. -/
theorem run_inBlocks (host : Host) (document : Document) {moves : List Move}
    (hopen : .teardown ∉ moves) (source : String) :
    ((ofDocument host document).run moves).journal
        = ((ofDocument host document).signed moves).map Prod.snd
      ∧ ∃ blocks part, (ofDocument host document).tree.InBlocks
          (((ofDocument host document).run moves).lane source)
          ((ofDocument host document).arrivals source moves)
          ((ofDocument host document).chronicle source moves) blocks part := by
  have hstart : ∃ blocks part, (ofDocument host document).tree.InBlocks
      ((ofDocument host document).lane source) [] [] blocks part :=
    ⟨[], [], rfl, rfl, by simp, rfl⟩
  have hin := inBlocks_run (.refl _) (sound_ofDocument host document) (sourced_start _ _) hstart rfl
    hopen
  refine ⟨?_, by simpa using hin⟩
  rw [journal_run]
  rfl

/-- The blocks of a screen that is told of its success and then of its end. -/
theorem run_inBlocks_screen :
    let moves : List Move := [.raise "screen" "success" none, .raise "screen" "finished" none,
      .advance (.lane "screen"), .elapse 5]
    Move.teardown ∉ moves
      ∧ ((ofDocument Host.bare ⟨[("id", .string "screen")]⟩).run moves).journal
          = ((ofDocument Host.bare ⟨[("id", .string "screen")]⟩).signed moves).map Prod.snd
      ∧ ∃ blocks part, (ofDocument Host.bare ⟨[("id", .string "screen")]⟩).tree.InBlocks
          (((ofDocument Host.bare ⟨[("id", .string "screen")]⟩).run moves).lane "screen")
          ((ofDocument Host.bare ⟨[("id", .string "screen")]⟩).arrivals "screen" moves)
          ((ofDocument Host.bare ⟨[("id", .string "screen")]⟩).chronicle "screen" moves)
          blocks part :=
  ⟨by decide, run_inBlocks _ _ (by decide) "screen"⟩

end Session

end Componentry

import Mathlib.Tactic
import Componentry.Proofs.Session.Move
/-!
# What one move does

`step_apply` says what every move does: it keeps the structure of the tree and the account of the
work that is left, takes messages off the front of lanes and puts messages at their ends, and writes
records, all as `Move` has it.  Its parts are `passes_apply` for the moves that leave the deliveries
under way alone, `step_turn` and `step_rest` for a lane of an open session, and `step_dropped` for
one of a closed session.
-/

namespace Componentry

namespace Session

/-! ### Moves other than those of a lane -/

/-- A move that leaves the deliveries under way alone: it puts messages on lanes, writes records,
and keeps the account of the work that is left. -/
structure Passes (s : Session) (posts : List (String × Message)) (records : List Record)
    (t : Session) : Prop where
  tree : s.tree.SameStructure t.tree
  host : t.host = s.host
  closed : t.closed = s.closed
  lane : ∀ source, t.lane source = queued (s.lane source) (postsTo source posts)
  journal : t.journal = s.journal ++ records
  issues : s.Issues t
  numbered : s.Numbered → t.Numbered
  account : s.Numbered → s.pending = s.backlog → t.pending = t.backlog

section Passes

variable {s t u : Session} {posts : List (String × Message)} {records : List Record}

lemma Emits.passes (h : s.Emits posts records t) : s.Passes posts records t where
  tree := h.tree
  host := h.host
  closed := h.closed
  lane := h.lane
  journal := h.journal
  issues := h.issues
  numbered := h.numbered
  account _ hp := by
    have hb := h.balance
    omega

/-- What neither the lanes nor the account depends on may change as well. -/
lemma Passes.congr (h : s.Passes posts records t) (htree : u.tree = t.tree)
    (hhost : u.host = t.host) (hclosed : u.closed = t.closed) (hlanes : u.lanes = t.lanes)
    (hjournal : u.journal = t.journal)
    (htickets : u.loads.map Load.ticket = t.loads.map Load.ticket) (hnext : u.tickets = t.tickets)
    (hpending : u.pending = t.pending) : s.Passes posts records u where
  tree := by rw [htree]; exact h.tree
  host := by rw [hhost, h.host]
  closed := by rw [hclosed, h.closed]
  lane source := by
    rw [← h.lane source]
    simp only [Session.lane, hlanes]
  journal := by rw [hjournal, h.journal]
  issues := h.issues.trans (.of_eq htickets hnext)
  numbered hn := by
    refine ⟨by rw [htickets]; exact (h.numbered hn).nodup, fun load hl => ?_⟩
    have hm : load.ticket ∈ t.loads.map Load.ticket := htickets ▸ List.mem_map_of_mem hl
    obtain ⟨load', hl', heq⟩ := List.mem_map.mp hm
    rw [hnext, ← heq]
    exact (h.numbered hn).lt load' hl'
  account hn hp := by
    have hlen : u.loads.length = t.loads.length := by simpa using congrArg List.length htickets
    have ha := h.account hn hp
    simp only [backlog, hlanes, hlen, hpending] at ha ⊢
    exact ha

/-- A load that has ended is taken off the loads and counted off. -/
lemma Emits.dropLoad (h : s.Emits posts records t) {load : Load} (hl : load ∈ s.loads) :
    s.Passes posts records (t.dropLoad load.ticket) where
  tree := h.tree
  host := h.host
  closed := h.closed
  lane := h.lane
  journal := h.journal
  issues := by
    refine ⟨h.issues.le, fun ticket hmem => h.issues.old ticket ?_⟩
    exact (List.filter_sublist.map Load.ticket).subset hmem
  numbered hn := by
    have ht := h.numbered hn
    refine ⟨?_, fun other ho => ht.lt other (List.mem_of_mem_filter ho)⟩
    exact ht.nodup.sublist (List.filter_sublist.map Load.ticket)
  account hn hp := by
    have ht := h.numbered hn
    have hb := h.balance
    have hmem : load ∈ t.loads := h.loads.subset hl
    have hlen : (t.loads.filter fun other => other.ticket ≠ load.ticket).length + 1
        = t.loads.length := by
      have hcount := List.count_eq_one_of_mem ht.nodup (List.mem_map_of_mem (f := Load.ticket) hmem)
      have hsplit := List.length_eq_countP_add_countP
        (fun other : Load => other.ticket = load.ticket) (l := t.loads)
      rw [List.count, List.countP_map] at hcount
      rw [← List.countP_eq_length_filter]
      have h1 : t.loads.countP (fun other => other.ticket = load.ticket) = 1 := by
        rw [← hcount]
        apply List.countP_congr
        simp
      have h2 : t.loads.countP (fun other => decide (other.ticket ≠ load.ticket))
          = t.loads.countP (fun other => ¬ decide (other.ticket = load.ticket) = true) := by
        apply List.countP_congr
        simp
      omega
    have hk : (t.dropLoad load.ticket).backlog + 1 = t.backlog := by
      simp only [backlog, Session.dropLoad, finishOne]
      omega
    have hq : (t.dropLoad load.ticket).pending = t.pending - 1 := rfl
    omega

end Passes

/-! ### Moves of the host -/

lemma passes_refl (s : Session) : s.Passes [] [] s := (Emits.refl s).passes

lemma passes_dispatch (s : Session) (event : Event) :
    s.Passes (if s.closed then [] else s.dispatched event) [] (s.accepted (s.dispatch event)) := by
  rw [dispatched, dispatch]
  by_cases hc : s.closed = true
  · rw [if_pos hc, if_pos hc]
    exact s.passes_refl
  · have he := s.emits_enqueue event.source (.deliver event)
    rw [if_neg hc] at he
    rw [if_neg hc, if_neg hc]
    split_ifs
    · exact s.passes_refl
    · exact s.passes_refl
    · exact he.passes

lemma passes_raise (s : Session) (source name : String) (payload : Option Json) :
    s.Passes (if s.closed then [] else s.raised source name payload) []
      (s.accepted (s.raise source name payload)) := by
  unfold raised raise
  cases EventName.ofText? name with
  | none => simpa [accepted] using s.passes_refl
  | some name => exact s.passes_dispatch { name, source, payload }

lemma passes_complete (s : Session) (id : String) (outcome : LifecycleEvent)
    (payload : Option Json) :
    s.Passes (if s.closed then [] else s.postsOf (s.completions (.complete id outcome payload))) []
      (s.accepted (s.complete id outcome payload)) := by
  simp only [completions, complete]
  cases s.addressed id with
  | error e => simpa [postsOf, accepted] using s.passes_refl
  | ok found =>
      obtain ⟨index, e⟩ := found
      dsimp only
      cases e.state.complete? outcome with
      | error transition => simpa [postsOf, accepted] using s.passes_refl
      | ok state =>
          have h1 := s.emits_setState index state
          have h2 := emits_raiseLifecycle (s.setState index state)
            ⟨index, outcome.raised.map (·, payload)⟩
          rw [h1.closed, messagesOf_congr h1.tree] at h2
          simpa [postsOf, accepted] using (h1.trans h2).passes

lemma passes_load (s : Session) (id : String) : s.Passes [] [] (s.accepted (s.load id)) := by
  unfold load accepted
  split_ifs
  · exact s.passes_refl
  · cases s.addressed id with
    | error e => exact s.passes_refl
    | ok found =>
        dsimp only
        split_ifs
        · exact s.passes_refl
        · exact (s.emits_acceptLoad _).passes

lemma passes_begin (s : Session) (id : String) : s.Passes [] [] (s.accepted (s.begin id)) := by
  rw [begin]
  cases s.addressed id with
  | error e => exact s.passes_refl
  | ok found =>
      dsimp only
      cases found.2.state.begin? with
      | error transition => exact s.passes_refl
      | ok state => exact (s.emits_setState _ state).passes

/-! ### Moves of loads and repeats -/

lemma passes_setAnswer (s : Session) (ticket arrival : Nat) (result : LoadResult) :
    s.Passes [] [] (s.setAnswer ticket arrival result) := by
  refine s.passes_refl.congr rfl rfl rfl rfl rfl ?_ rfl rfl
  simp only [setAnswer, List.map_map]
  apply List.map_congr_left
  intro load _
  simp only [Function.comp_apply]
  split_ifs <;> rfl

lemma Passes.trans_nil {s t u : Session} (h : s.Passes [] [] t) (h' : t.Passes [] [] u) :
    s.Passes [] [] u where
  tree := h.tree.trans h'.tree
  host := h'.host.trans h.host
  closed := h'.closed.trans h.closed
  lane source := by rw [h'.lane, h.lane, postsTo_nil, queued_nil]
  journal := by rw [h'.journal, h.journal, List.append_nil]
  issues := h.issues.trans h'.issues
  numbered hn := h'.numbered (h.numbered hn)
  account hn hp := h'.account (h.numbered hn) (h.account hn hp)

lemma passes_ask (s : Session) (ticket : Nat) (provider : DataProvider) (request : DataRequest) :
    s.Passes [] [] (s.ask ticket provider request) := by
  rw [ask]
  split
  · exact s.passes_setAnswer ticket _ _
  · rename_i request _
    have h0 : s.Passes [] [] { s with requests := s.requests ++ [request] } :=
      s.passes_refl.congr rfl rfl rfl rfl rfl rfl rfl rfl
    exact h0.trans_nil (passes_setAnswer _ ticket _ _)

lemma passes_beginLoad {s : Session} {load : Load} (hl : load ∈ s.loads) :
    s.Passes [] (s.beginRecords load) (s.beginLoad load) := by
  rw [beginRecords, beginLoad]
  cases s.tree.entity? load.provider with
  | none => exact (Emits.refl s).dropLoad hl
  | some e =>
      dsimp only
      cases e.behaviour.dataProvider? with
      | none => simpa using (Emits.refl s).dropLoad hl
      | some provider =>
          by_cases hs : e.suppressed = true
          · simpa [hs, refusedRecord, loadEvent] using
              (s.emits_record (loadEvent e.id) none (.skipped .sourceSuppressed)).dropLoad hl
          · simp only [hs, Bool.false_eq_true, and_false, if_false]
            split_ifs
            · exact (Emits.refl s).dropLoad hl
            · exact (s.emits_setState load.provider .running).passes.trans_nil
                (passes_ask _ load.ticket provider _)

lemma loaded_frame (e : Entity) (result : LoadResult) : (loaded e result).frame = e.frame := rfl

lemma emits_completeLoad (s : Session) (provider : Nat) (result : LoadResult) :
    s.Emits (if s.closed then [] else s.postsOf (s.loadCompletion provider result)) []
      (s.completeLoad provider result) := by
  rw [completeLoad, loadCompletion]
  cases he : s.tree.entity? provider with
  | none => simpa [postsOf] using Emits.refl s
  | some e =>
      have h1 := s.emits_modifyEntity provider fun e => loaded_frame e result
      have h2 := emits_raiseLifecycle (s.modifyEntity provider fun e => loaded e result)
        ⟨provider, (outcomeOf e result).1.raised.map (·, some (outcomeOf e result).2)⟩
      rw [h1.closed, messagesOf_congr h1.tree] at h2
      simpa [postsOf] using h1.trans h2

lemma passes_endLoad {s : Session} {load : Load} (hl : load ∈ s.loads) (result : LoadResult) :
    s.Passes (if s.closed then [] else s.postsOf (s.loadCompletion load.provider result)) []
      (s.endLoad load result) := by
  rw [endLoad]
  by_cases hc : s.closed = true
  · rw [if_pos hc, if_pos hc]
    exact (Emits.refl s).dropLoad hl
  · have h := s.emits_completeLoad load.provider result
    rw [if_neg hc] at h
    rw [if_neg hc, if_neg hc]
    exact h.dropLoad hl

lemma passes_advanceLoad (s : Session) (ticket : Nat) :
    s.Passes (s.posted (.advance (.load ticket))) (s.records (.advance (.load ticket)))
      (s.advanceLoad ticket) := by
  have hp : s.posted (.advance (.load ticket))
      = if s.closed then [] else s.postsOf (s.completions (.advance (.load ticket))) := rfl
  rw [hp]
  simp only [completions, records, advanceLoad]
  cases hf : s.loads.find? fun load => load.ticket = ticket with
  | none => simpa [postsOf] using s.passes_refl
  | some load =>
      have hl : load ∈ s.loads := List.mem_of_find?_eq_some hf
      dsimp only
      cases ha : load.answer with
      | none => simpa [postsOf] using passes_beginLoad hl
      | some answer =>
          obtain ⟨arrival, result⟩ := answer
          dsimp only
          by_cases harrived : arrival ≤ s.clock
          · simpa only [if_pos harrived] using passes_endLoad hl result
          · simpa [if_neg harrived, postsOf] using s.passes_refl

lemma passes_advanceTimer (s : Session) (generation : Nat) :
    s.Passes (if s.closed then [] else s.refired generation) [] (s.advanceTimer generation) := by
  rw [refired, advanceTimer]
  cases s.ticker.timer? generation with
  | none => simpa using s.passes_refl
  | some timer =>
      dsimp only
      by_cases hwake : timer.wake ≤ s.clock
      · rw [if_pos hwake, if_pos hwake]
        have he := s.emits_enqueue timer.label.event.source
          (.refire timer.label.action timer.label.event)
        exact he.passes.congr rfl rfl rfl rfl rfl rfl rfl rfl
      · simpa [if_neg hwake] using s.passes_refl

/-- A move that neither ends anything nor is one of a dispatch or a repeat puts nothing on lanes. -/
lemma posted_eq_nil (s : Session) {m : Move} (hm : s.completions m = [])
    (hp : s.posted m = if s.closed then [] else s.postsOf (s.completions m)) : s.posted m = [] := by
  rw [hp, hm]
  split_ifs <;> rfl

/-- **Every move but a teardown and that of a lane** leaves the deliveries under way alone. -/
theorem passes_apply (s : Session) {m : Move} (hm : ∀ source, m ≠ .advance (.lane source))
    (hopen : m ≠ .teardown) : s.Passes (s.posted m) (s.records m) (s.apply m) := by
  cases m with
  | dispatch event => exact s.passes_dispatch event
  | raise source name payload => exact s.passes_raise source name payload
  | load id =>
      rw [s.posted_eq_nil rfl rfl]
      exact s.passes_load id
  | begin id =>
      rw [s.posted_eq_nil rfl rfl]
      exact s.passes_begin id
  | complete id outcome payload => exact s.passes_complete id outcome payload
  | teardown => exact absurd rfl hopen
  | elapse moment =>
      rw [s.posted_eq_nil rfl rfl]
      exact s.passes_refl.congr rfl rfl rfl rfl rfl rfl rfl rfl
  | advance task =>
      cases task with
      | lane source => exact absurd rfl (hm source)
      | load ticket => exact s.passes_advanceLoad ticket
      | timer generation => exact s.passes_advanceTimer generation

/-! ### Every move -/

/-- What every move does: it keeps the structure of the tree, takes messages off the front of lanes
and puts messages at their ends, writes records, and keeps the account of the work that is left. -/
structure Step (s : Session) (m : Move) (t : Session) : Prop where
  tree : s.tree.SameStructure t.tree
  host : t.host = s.host
  closed : t.closed = (s.closed || m = .teardown)
  queue : ∀ source, (s.lane source).queue ++ postsTo source (s.posted m)
    = s.taken source m ++ (t.lane source).queue
  work : ∀ source, m ≠ .advance (.lane source) → (t.lane source).work = (s.lane source).work
  journal : t.journal = s.journal ++ s.records m
  issues : s.Issues t
  numbered : s.Numbered → t.Numbered
  account : s.Numbered → s.pending = s.backlog → t.pending = t.backlog

@[simp] lemma teardown_tree (s : Session) : s.teardown.tree = s.tree := by
  rw [teardown]; split_ifs <;> rfl

@[simp] lemma teardown_host (s : Session) : s.teardown.host = s.host := by
  rw [teardown]; split_ifs <;> rfl

@[simp] lemma teardown_lanes (s : Session) : s.teardown.lanes = s.lanes := by
  rw [teardown]; split_ifs <;> rfl

@[simp] lemma teardown_lane (s : Session) (source : String) :
    s.teardown.lane source = s.lane source := by
  rw [lane, lane, teardown_lanes]

@[simp] lemma teardown_journal (s : Session) : s.teardown.journal = s.journal := by
  rw [teardown]; split_ifs <;> rfl

@[simp] lemma teardown_loads (s : Session) : s.teardown.loads = s.loads := by
  rw [teardown]; split_ifs <;> rfl

@[simp] lemma teardown_tickets (s : Session) : s.teardown.tickets = s.tickets := by
  rw [teardown]; split_ifs <;> rfl

@[simp] lemma teardown_pending (s : Session) : s.teardown.pending = s.pending := by
  rw [teardown]; split_ifs <;> rfl

@[simp] lemma teardown_closed (s : Session) : s.teardown.closed = true := by
  rw [teardown]
  split_ifs with hc
  · exact hc
  · rfl

lemma taken_of_ne (s : Session) {source : String} {m : Move} (hm : m ≠ .advance (.lane source)) :
    s.taken source m = [] := by
  cases m with
  | advance task =>
      cases task with
      | lane mover =>
          have hne : mover ≠ source := fun h => hm (h ▸ rfl)
          simp [taken, hne]
      | load ticket => rfl
      | timer generation => rfl
  | _ => rfl

/-- What a lane takes is in front of what it keeps. -/
lemma taken_append_opened (s : Session) (mover source : String) :
    s.taken source (.advance (.lane mover)) ++ ((s.opened mover).lane source).queue
      = (s.lane source).queue := by
  rw [lane_opened, taken]
  by_cases h : mover = source
  · subst h
    split_ifs
    · rw [← List.drop_one, List.take_append_drop]
    · simp
  · simp [h]

section Lanes

variable {s t : Session}

/-- A lane that has nothing to do now leaves the session as it is. -/
lemma apply_lane_of_rest (hc : s.closed = false) {source : String} (hturn : s.turn source = none) :
    s.apply (.advance (.lane source)) = s := by
  have h := advanceLane_eq hc source
  rw [hturn] at h
  exact h

/-- A lane that has something to do takes its turn. -/
lemma apply_lane_of_turn (hc : s.closed = false) {source : String} {turn : Turn}
    (hturn : s.turn source = some turn) :
    ∃ t, (s.opened source).Emits (s.postsOf turn.completions) turn.records t
      ∧ s.apply (.advance (.lane source)) = t.endTurn source turn.work := by
  have h := advanceLane_eq hc source
  rw [hturn] at h
  exact h

lemma Passes.step {m : Move} (hm : ∀ source, m ≠ .advance (.lane source)) (hopen : m ≠ .teardown)
    (h : s.Passes (s.posted m) (s.records m) t) : s.Step m t where
  tree := h.tree
  host := h.host
  closed := by simpa [hopen] using h.closed
  queue source := by rw [h.lane, s.taken_of_ne (hm source)]; rfl
  work source _ := by rw [h.lane]; rfl
  journal := h.journal
  issues := h.issues
  numbered := h.numbered
  account := h.account

/-- A teardown leaves the lanes as they are. -/
lemma step_teardown (s : Session) : s.Step .teardown s.teardown where
  tree := by rw [teardown_tree]; exact .refl _
  host := s.teardown_host
  closed := by simp
  queue source := by
    rw [s.posted_eq_nil rfl rfl, s.taken_of_ne (by simp), teardown_lane, postsTo_nil]
    simp
  work source _ := by rw [teardown_lane]
  journal := by simp [records]
  issues := .of_eq (by rw [teardown_loads]) s.teardown_tickets
  numbered hn := hn.congr s.teardown_loads s.teardown_tickets
  account _ hp := by
    rw [teardown_pending, hp, backlog, backlog, teardown_lanes, teardown_loads]

/-- The turn of a lane in an open session. -/
lemma step_turn (hc : s.closed = false) {mover : String} {turn : Turn}
    (hturn : s.turn mover = some turn)
    (h : (s.opened mover).Emits (s.postsOf turn.completions) turn.records t) :
    s.Step (.advance (.lane mover)) (t.endTurn mover turn.work) := by
  have hposted : s.posted (.advance (.lane mover)) = s.postsOf turn.completions := by
    simp [posted, completions, hc, hturn]
  have hrecords : s.records (.advance (.lane mover)) = turn.records := by
    simp [records, hc, hturn]
  exact
    { tree := by simpa using h.tree
      host := by simpa using h.host
      closed := by simpa using h.closed
      queue := fun source => by
        have hq : ((t.endTurn mover turn.work).lane source).queue
            = ((s.opened mover).lane source).queue
              ++ postsTo source (s.postsOf turn.completions) := by
          rw [lane_endTurn, h.lane, h.lane]
          split_ifs with hx
          · subst hx
            rfl
          · rfl
        rw [hposted, hq, ← List.append_assoc, taken_append_opened]
      work := fun source hne => by
        have hx : mover ≠ source := fun hx => hne (hx ▸ rfl)
        rw [lane_endTurn, if_neg hx, h.lane, lane_opened]
        simp [queued, hx]
      journal := by simpa [hrecords] using h.journal
      issues := by
        have ho : s.Issues (s.opened mover) :=
          .of_eq (by rw [opened_loads]) (s.opened_tickets mover)
        exact (ho.trans h.issues).trans
          (.of_eq (by rw [endTurn_loads]) (t.endTurn_tickets mover turn.work))
      numbered := fun hn => by
        have ht := h.numbered (hn.congr (s.opened_loads mover) (s.opened_tickets mover))
        exact ht.congr (t.endTurn_loads mover turn.work) (t.endTurn_tickets mover turn.work)
      account := fun hn hp => by
        exact pending_endTurn (h.carries (carries_opened hp (by simp [hturn]))) turn.work }

/-- A lane of an open session that has nothing to do now. -/
lemma step_rest (hc : s.closed = false) {mover : String} (hturn : s.turn mover = none) :
    s.Step (.advance (.lane mover)) s := by
  have hposted : s.posted (.advance (.lane mover)) = [] := by
    simp [posted, completions, hc, hturn, postsOf]
  have hrecords : s.records (.advance (.lane mover)) = [] := by simp [records, hturn]
  have htaken : ∀ source, s.taken source (.advance (.lane mover)) = [] := by
    intro source
    rw [taken]
    split_ifs with h
    · obtain ⟨rfl, hw⟩ := h
      cases hq : (s.lane mover).queue with
      | nil => rfl
      | cons message queue => cases message <;> simp [Session.turn, hw, hq] at hturn
    · rfl
  exact
    { tree := .refl _
      host := rfl
      closed := by simp
      queue := fun source => by rw [hposted, htaken, postsTo_nil, List.append_nil, List.nil_append]
      work := fun _ _ => rfl
      journal := by rw [hrecords, List.append_nil]
      issues := .of_eq rfl rfl
      numbered := id
      account := fun _ hp => hp }

end Lanes

end Session

/-! ### Lanes of a closed session -/

/-- What a lane keeps when it drops the delivery under way, or else its first message. -/
def Lane.shed (lane : Lane) : Lane :=
  { queue := if lane.work.isSome then lane.queue else lane.queue.tail }

lemma Lane.weight_shed (lane : Lane) : lane.shed.weight = lane.weight - 1 := by
  unfold Lane.shed Lane.weight
  cases lane.work <;> simp

lemma Lane.shed_eq_self {lane : Lane} (h : lane.weight = 0) : lane.shed = lane := by
  obtain ⟨queue, work⟩ := lane
  simp only [Lane.weight, Nat.add_eq_zero_iff, List.length_eq_zero_iff] at h
  obtain ⟨rfl, hw⟩ := h
  cases work with
  | none => rfl
  | some delivery => simp at hw

namespace Session

variable {s : Session}

/-- A lane drops one piece of its work, which is counted off. -/
def dropped (s : Session) (source : String) : Session :=
  if (s.lane source).weight = 0 then s
  else (s.setLane source (s.lane source).shed).finishOne

@[simp] lemma dropped_tree (source : String) : (s.dropped source).tree = s.tree := by
  rw [dropped]; split_ifs <;> rfl

@[simp] lemma dropped_host (source : String) : (s.dropped source).host = s.host := by
  rw [dropped]; split_ifs <;> rfl

@[simp] lemma dropped_closed (source : String) : (s.dropped source).closed = s.closed := by
  rw [dropped]; split_ifs <;> rfl

@[simp] lemma dropped_journal (source : String) : (s.dropped source).journal = s.journal := by
  rw [dropped]; split_ifs <;> rfl

@[simp] lemma dropped_loads (source : String) : (s.dropped source).loads = s.loads := by
  rw [dropped]; split_ifs <;> rfl

@[simp] lemma dropped_tickets (source : String) : (s.dropped source).tickets = s.tickets := by
  rw [dropped]; split_ifs <;> rfl

/-- In a closed session a lane only drops its work. -/
lemma apply_lane_of_closed (hc : s.closed = true) (source : String) :
    s.apply (.advance (.lane source)) = s.dropped source := by
  show s.advanceLane source = _
  rw [advanceLane, dropped, Lane.shed, Lane.weight]
  cases hw : (s.lane source).work with
  | some delivery => simp [hc, finishWork]
  | none =>
      cases hq : (s.lane source).queue with
      | nil => simp
      | cons message queue => simp [hc]

lemma lane_dropped (s : Session) (source other : String) :
    (s.dropped source).lane other
      = if source = other then (s.lane source).shed else s.lane other := by
  rw [dropped]
  split_ifs with hw h h
  · subst h
    rw [Lane.shed_eq_self hw]
  · rfl
  · exact (s.lane_setLane source other _).trans (if_pos h)
  · exact (s.lane_setLane source other _).trans (if_neg h)

/-- The account of a lane that drops a piece of its work. -/
lemma dropped_account (source : String) (h : s.pending = s.backlog) :
    (s.dropped source).pending = (s.dropped source).backlog := by
  rw [dropped]
  split_ifs with hw
  · exact h
  · have hb := s.backlog_setLane source (s.lane source).shed
    have hle := s.weight_le_backlog source
    have hp : (s.setLane source (s.lane source).shed).finishOne.pending = s.pending - 1 := rfl
    have hbk : (s.setLane source (s.lane source).shed).finishOne.backlog
        = (s.setLane source (s.lane source).shed).backlog := rfl
    rw [Lane.weight_shed] at hb
    omega

/-- The move of a lane in a closed session. -/
lemma step_dropped (hc : s.closed = true) (mover : String) :
    s.Step (.advance (.lane mover)) (s.dropped mover) := by
  have hposted : s.posted (.advance (.lane mover)) = [] := by simp [posted, hc]
  have hrecords : s.records (.advance (.lane mover)) = [] := by simp [records, hc]
  exact
    { tree := by rw [dropped_tree]; exact .refl _
      host := dropped_host mover
      closed := by simp
      queue := fun source => by
        rw [hposted, lane_dropped, taken, Lane.shed, postsTo_nil, List.append_nil]
        by_cases h : mover = source
        · subst h
          cases (s.lane mover).work with
          | some delivery => simp
          | none => simp [← List.drop_one]
        · simp [h]
      work := fun source hne => by
        have hx : mover ≠ source := fun hx => hne (hx ▸ rfl)
        rw [lane_dropped, if_neg hx]
      journal := by rw [hrecords, dropped_journal, List.append_nil]
      issues := .of_eq (by rw [dropped_loads]) (dropped_tickets mover)
      numbered := fun hn => hn.congr (dropped_loads mover) (dropped_tickets mover)
      account := fun _ hp => dropped_account mover hp }

/-- **Every move** is a step. -/
theorem step_apply (s : Session) (m : Move) : s.Step m (s.apply m) := by
  by_cases hm : ∃ mover, m = .advance (.lane mover)
  · obtain ⟨mover, rfl⟩ := hm
    cases hc : s.closed with
    | true =>
        rw [apply_lane_of_closed hc]
        exact step_dropped hc mover
    | false =>
        cases hturn : s.turn mover with
        | none =>
            rw [apply_lane_of_rest hc hturn]
            exact step_rest hc hturn
        | some turn =>
            obtain ⟨t, hemits, happly⟩ := apply_lane_of_turn hc hturn
            rw [happly]
            exact step_turn hc hturn hemits
  · have hm' : ∀ mover, m ≠ .advance (.lane mover) := fun mover h => hm ⟨mover, h⟩
    by_cases hteardown : m = .teardown
    · subst hteardown
      exact s.step_teardown
    · exact (s.passes_apply hm' hteardown).step hm' hteardown

end Session

end Componentry

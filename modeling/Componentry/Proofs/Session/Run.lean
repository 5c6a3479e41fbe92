import Mathlib.Tactic
import Componentry.Proofs.Build.Sound
import Componentry.Proofs.Session.Step
/-!
# Along a run

What can be seen of a move from outside: the messages it leaves at the end of a lane, `arrived`, and
the records it adds to the journal, `written`.  Both are read off the sessions before and after the
move, and agree with what the move posts and records (`arrived_eq`, `written_eq`).

Three invariants hold along every run.  The tree keeps its structure (`sameStructure_run`), so that
it stays sound (`sound_run`); `pending` is the work that is left (`pending_run`); and every lane has
events of its own source only, which are delivered to an entity that exists (`Sourced`,
`sourced_run`).
-/

namespace Componentry

/-- The event of a message. -/
def Message.event : Message → Event
  | .deliver event => event
  | .refire _ event => event

/-- A host that knows no components, has no transport and refuses no function. -/
def Host.bare : Host where
  catalog := ⟨.empty .overwrite⟩
  evaluator := .standard
  dispatch := {}
  transport := Host.offline
  refusal _ := none

/-- A host with the built-in components whose transport has one answer for all requests. -/
def Host.answering (latency : Nat) (result : LoadResult) : Host :=
  { Host.bare with
    catalog := (Catalog.withBuiltins {}).toOption.getD ⟨.empty .overwrite⟩
    transport := fun _ _ => (latency, result) }

namespace Session

/-- What the moves of a run contribute to a list, in order. -/
def along {α : Type} (f : Session → Move → List α) (s : Session) : List Move → List α
  | [] => []
  | m :: moves => f s m ++ along f (s.apply m) moves

@[simp] lemma along_nil {α : Type} (f : Session → Move → List α) (s : Session) :
    s.along f [] = [] := rfl

lemma along_cons {α : Type} (f : Session → Move → List α) (s : Session) (m : Move)
    (moves : List Move) : s.along f (m :: moves) = f s m ++ (s.apply m).along f moves := rfl

/-- What is listed along a run is listed by one of its moves. -/
lemma exists_of_mem_along {α : Type} {f : Session → Move → List α} {s : Session} {a : α}
    {moves : List Move} (h : a ∈ s.along f moves) :
    ∃ front m back, moves = front ++ m :: back ∧ a ∈ f (s.run front) m := by
  induction moves generalizing s with
  | nil => simp at h
  | cons m moves ih =>
      obtain hfirst | hrest := List.mem_append.mp h
      · exact ⟨[], m, moves, rfl, hfirst⟩
      · obtain ⟨front, m', back, rfl, hmem⟩ := ih hrest
        exact ⟨m :: front, m', back, rfl, hmem⟩

/-! ### What can be seen of a move -/

/-- The messages that stand on a lane after a move behind those that were there before. -/
def arrived (s : Session) (source : String) (m : Move) : List Message :=
  ((s.apply m).lane source).queue.drop ((s.lane source).queue.length - (s.taken source m).length)

/-- The messages that are put on a lane along a run, in order. -/
def arrivals (s : Session) (source : String) : List Move → List Message
  | [] => []
  | m :: moves => s.arrived source m ++ (s.apply m).arrivals source moves

/-- The records that a move adds to the journal. -/
def written (s : Session) (m : Move) : List Record := (s.apply m).journal.drop s.journal.length

/-- The records of a run in order, each with the move that has written it. -/
def signed (s : Session) : List Move → List (Move × Record)
  | [] => []
  | m :: moves => (s.written m).map (m, ·) ++ (s.apply m).signed moves

lemma arrived_eq (s : Session) (source : String) (m : Move) :
    s.arrived source m = postsTo source (s.posted m) := by
  have hq := (s.step_apply m).queue source
  have hle : (s.taken source m).length ≤ (s.lane source).queue.length := by
    unfold taken
    split
    · split_ifs
      · exact List.length_take_le' _ _
      · exact Nat.zero_le _
    · exact Nat.zero_le _
  have hdrop : (s.taken source m ++ ((s.apply m).lane source).queue).drop
      (s.lane source).queue.length = s.arrived source m := by
    rw [List.drop_append, List.drop_eq_nil_of_le hle, List.nil_append, arrived]
  rw [← hdrop, ← hq, List.drop_left]

/-- What a lane takes and keeps is what it had and what has arrived. -/
lemma queue_append_arrived (s : Session) (source : String) (m : Move) :
    (s.lane source).queue ++ s.arrived source m
      = s.taken source m ++ ((s.apply m).lane source).queue := by
  rw [arrived_eq]
  exact (s.step_apply m).queue source

lemma written_eq (s : Session) (m : Move) : s.written m = s.records m := by
  rw [written, (s.step_apply m).journal, List.drop_left]

/-- The journal of a run is what its moves have written. -/
lemma journal_run (s : Session) (moves : List Move) :
    (s.run moves).journal = s.journal ++ (s.signed moves).map Prod.snd := by
  induction moves generalizing s with
  | nil => simp [signed]
  | cons m moves ih =>
      rw [run_cons, ih, (s.step_apply m).journal, ← written_eq, signed]
      simp [Function.comp_def]

lemma arrivals_append (s : Session) (source : String) (moves more : List Move) :
    s.arrivals source (moves ++ more)
      = s.arrivals source moves ++ (s.run moves).arrivals source more := by
  induction moves generalizing s with
  | nil => rfl
  | cons m moves ih => rw [List.cons_append, arrivals, ih, arrivals, List.append_assoc, run_cons]

/-! ### The structure of the tree -/

lemma sameStructure_run (s : Session) (moves : List Move) :
    s.tree.SameStructure (s.run moves).tree := by
  induction moves generalizing s with
  | nil => exact .refl _
  | cons m moves ih => exact (s.step_apply m).tree.trans (ih (s.apply m))

lemma sound_run {s : Session} (h : s.tree.Sound) (moves : List Move) : (s.run moves).tree.Sound :=
  (s.sameStructure_run moves).sound h

/-- The tree of a session that is opened on a document is sound. -/
lemma sound_ofDocument (host : Host) (document : Document) :
    (ofDocument host document).tree.Sound :=
  document.build_sound host.catalog host.evaluator host.dispatch

/-! ### Being open -/

lemma closed_apply (s : Session) (m : Move) :
    (s.apply m).closed = (s.closed || m = .teardown) := (s.step_apply m).closed

lemma closed_apply_of_closed {s : Session} (hc : s.closed = true) (m : Move) :
    (s.apply m).closed = true := by
  rw [closed_apply, hc, Bool.true_or]

/-- Only a teardown closes a session. -/
lemma closed_run (s : Session) (moves : List Move) :
    (s.run moves).closed = (s.closed || .teardown ∈ moves) := by
  induction moves generalizing s with
  | nil => simp
  | cons m moves ih =>
      rw [run_cons, ih, closed_apply]
      by_cases hm : m = .teardown
      · simp [hm]
      · simp [hm, Ne.symm hm]

lemma closed_run_of_closed {s : Session} (hc : s.closed = true) (moves : List Move) :
    (s.run moves).closed = true := by
  rw [closed_run, hc, Bool.true_or]

/-! ### The account -/

lemma numbered_run {s : Session} (h : s.Numbered) (moves : List Move) : (s.run moves).Numbered := by
  induction moves generalizing s with
  | nil => exact h
  | cons m moves ih => exact ih ((s.step_apply m).numbered h)

lemma numbered_start (host : Host) (tree : Tree) : (start host tree).Numbered :=
  ⟨List.nodup_nil, by simp [start]⟩

/-- The account of the work that is left is kept along a run. -/
lemma pending_run {s : Session} (hn : s.Numbered) (h : s.pending = s.backlog) (moves : List Move) :
    (s.run moves).pending = (s.run moves).backlog := by
  induction moves generalizing s with
  | nil => exact h
  | cons m moves ih =>
      have hstep := s.step_apply m
      exact ih (hstep.numbered hn) (hstep.account hn h)

lemma pending_ofDocument (host : Host) (document : Document) (moves : List Move) :
    ((ofDocument host document).run moves).pending
      = ((ofDocument host document).run moves).backlog :=
  pending_run (numbered_start _ _) rfl moves

/-! ### The events of a lane -/

/-- Every message is on the lane of the source of its event, and so is every delivery under way.
The source of an event that is going to be delivered exists. -/
structure Sourced (s : Session) : Prop where
  queue : ∀ source, ∀ message ∈ (s.lane source).queue, message.event.source = source
  found : ∀ source event, .deliver event ∈ (s.lane source).queue → (s.tree.find? source).isSome
  work : ∀ source delivery, (s.lane source).work = some delivery → delivery.event.source = source

/-- The messages of a completion are about the entity that has ended. -/
lemma messagesOf_sourced {s : Session} (h : s.tree.Sound) {c : Completion}
    {post : String × Message} (hp : post ∈ s.messagesOf c) :
    post.2.event.source = post.1 ∧ (s.tree.find? post.1).isSome := by
  rw [messagesOf] at hp
  cases he : s.tree.entity? c.index with
  | none => simp [he] at hp
  | some e =>
      rw [he] at hp
      dsimp only at hp
      split_ifs at hp
      · simp at hp
      · obtain ⟨event, _, rfl⟩ := List.mem_map.mp hp
        obtain ⟨first, hf, _⟩ := h.found c.index e.id (Tree.idAt?_of_entity? he)
        exact ⟨rfl, by simp [hf]⟩

lemma postsOf_sourced {s : Session} (h : s.tree.Sound) {completions : List Completion}
    {post : String × Message} (hp : post ∈ s.postsOf completions) :
    post.2.event.source = post.1 ∧ (s.tree.find? post.1).isSome := by
  obtain ⟨c, _, hc⟩ := List.mem_flatMap.mp hp
  exact messagesOf_sourced h hc

/-- A message is put on a lane because an event is dispatched, something has ended, or a repeat is
due. -/
lemma posted_cases {s : Session} {m : Move} {post : String × Message} (hp : post ∈ s.posted m) :
    (∃ event t, s.dispatch event = .ok t ∧ post = (event.source, .deliver event))
      ∨ post ∈ s.postsOf (s.completions m)
      ∨ ∃ action event, post = (event.source, .refire action event) := by
  have hdispatched : ∀ event, post ∈ s.dispatched event →
      ∃ event t, s.dispatch event = .ok t ∧ post = (event.source, .deliver event) := by
    intro event hd
    rw [dispatched] at hd
    cases h : s.dispatch event with
    | error refusal => simp [h] at hd
    | ok t =>
        rw [h, List.mem_singleton] at hd
        exact ⟨event, t, h, hd⟩
  unfold posted at hp
  split_ifs at hp
  · simp at hp
  · split at hp
    · exact .inl (hdispatched _ hp)
    · unfold raised at hp
      split at hp
      · simp at hp
      · exact .inl (hdispatched _ hp)
    · rw [refired] at hp
      split at hp
      · simp at hp
      · split_ifs at hp
        · exact .inr (.inr ⟨_, _, List.mem_singleton.mp hp⟩)
        · simp at hp
    · exact .inr (.inl hp)

/-- Every message goes to the lane of the source of its event, which exists if the event is to be
delivered. -/
lemma posted_sourced {s : Session} (h : s.tree.Sound) {m : Move} {post : String × Message}
    (hp : post ∈ s.posted m) :
    post.2.event.source = post.1
      ∧ ∀ event, post.2 = .deliver event → (s.tree.find? post.1).isSome := by
  obtain ⟨event, t, hd, rfl⟩ | hc | ⟨action, event, rfl⟩ := posted_cases hp
  · refine ⟨rfl, fun _ _ => ?_⟩
    rw [dispatch] at hd
    split_ifs at hd with _ hfind
    simpa [Option.isSome_iff_ne_none] using hfind
  · have hs := postsOf_sourced h hc
    exact ⟨hs.1, fun _ _ => hs.2⟩
  · exact ⟨rfl, fun _ h => by cases h⟩

lemma mem_postsTo {source : String} {posts : List (String × Message)} {message : Message} :
    message ∈ postsTo source posts ↔ (source, message) ∈ posts := by
  simp [postsTo]

/-- What stands on a lane after a move was there before, or has been put there. -/
lemma mem_queue_apply {s : Session} {m : Move} {source : String} {message : Message}
    (h : message ∈ ((s.apply m).lane source).queue) :
    message ∈ (s.lane source).queue ∨ (source, message) ∈ s.posted m := by
  have hq : message ∈ (s.lane source).queue ++ postsTo source (s.posted m) := by
    rw [(s.step_apply m).queue source]
    exact List.mem_append_right _ h
  rw [List.mem_append, mem_postsTo] at hq
  exact hq

lemma workFrom_event {s : Session} {event : Event} {steps : List PlannedStep} {d : Delivery}
    (h : s.workFrom event steps = some d) : d.event = event := by
  induction steps with
  | nil => cases h
  | cons step rest ih =>
      cases step with
      | run next => cases h; rfl
      | skip actionId reason => exact ih h

lemma deliverTurn_work {s : Session} {event : Event} {d : Delivery}
    (h : (s.deliverTurn event).work = some d) : d.event = event := by
  rw [deliverTurn] at h
  split at h
  · cases h
  · cases h
  · exact workFrom_event h

lemma refireTurn_work (s : Session) (action : Nat) (event : Event) :
    (s.refireTurn action event).work = none := by
  rw [refireTurn]
  split <;> rfl

/-- A delivery under way after a turn is about an event of the lane. -/
lemma Sourced.turn_work {s : Session} (h : s.Sourced) {source : String} {turn : Turn}
    (hturn : s.turn source = some turn) {d : Delivery} (hd : turn.work = some d) :
    d.event.source = source := by
  rw [Session.turn] at hturn
  cases hw : (s.lane source).work with
  | some delivery =>
      simp only [hw] at hturn
      split_ifs at hturn
      cases hturn
      rw [workFrom_event hd]
      exact h.work source delivery hw
  | none =>
      cases hq : (s.lane source).queue with
      | nil => simp [hw, hq] at hturn
      | cons message queue =>
          have hm : message ∈ (s.lane source).queue := hq ▸ List.mem_cons_self
          simp only [hw, hq] at hturn
          cases message with
          | deliver event =>
              cases hturn
              rw [deliverTurn_work hd]
              exact h.queue source _ hm
          | refire action event =>
              cases hturn
              rw [refireTurn_work] at hd
              cases hd

/-! ### The records of a lane -/

lemma execution_source {s : Session} {index : Nat} {event : Event} {r : Record}
    (h : r ∈ (s.execution index event).records) : r.source = event.source := by
  rw [execution] at h
  split at h
  · simp at h
  · rw [List.mem_singleton.mp h]
    rfl

lemma skipRecords_source {event : Event} {steps : List PlannedStep} {r : Record}
    (h : r ∈ skipRecords event steps) : r.source = event.source := by
  induction steps with
  | nil => simp [skipRecords] at h
  | cons step rest ih =>
      cases step with
      | run next => simp [skipRecords] at h
      | skip actionId reason =>
          obtain rfl | h := List.mem_cons.mp h
          · rfl
          · exact ih h

lemma refireEmissions_source {s : Session} {event : Event} {steps : List PlannedStep} {r : Record}
    (h : r ∈ (s.refireEmissions event steps).records) : r.source = event.source := by
  induction steps generalizing s with
  | nil => simp [refireEmissions] at h
  | cons step rest ih =>
      obtain h | h := List.mem_append.mp h
      · cases step with
        | run run => exact execution_source h
        | skip actionId reason =>
            rw [List.mem_singleton.mp h]
            rfl
      · exact ih h

/-- A lane writes records of its own source only. -/
lemma Sourced.turn_source {s : Session} (h : s.Sourced) {source : String} {turn : Turn}
    (hturn : s.turn source = some turn) {r : Record} (hr : r ∈ turn.records) :
    r.source = source := by
  rw [Session.turn] at hturn
  cases hw : (s.lane source).work with
  | some delivery =>
      simp only [hw] at hturn
      split_ifs at hturn
      cases hturn
      rw [← h.work source delivery hw]
      obtain hr | hr := List.mem_append.mp hr
      · exact execution_source hr
      · exact skipRecords_source hr
  | none =>
      cases hq : (s.lane source).queue with
      | nil => simp [hw, hq] at hturn
      | cons message queue =>
          have hm : message ∈ (s.lane source).queue := hq ▸ List.mem_cons_self
          rw [← h.queue source message hm]
          simp only [hw, hq] at hturn
          cases message with
          | deliver event =>
              cases hturn
              rw [deliverTurn] at hr
              split at hr
              · simp at hr
              · rw [List.mem_singleton.mp hr]
                rfl
              · obtain rfl | hr := List.mem_cons.mp hr
                · rfl
                · exact skipRecords_source hr
          | refire action event =>
              cases hturn
              rw [refireTurn] at hr
              split at hr
              · exact refireEmissions_source hr
              · simp at hr

/-- What is under way on a lane after its own move. -/
lemma work_apply_lane (s : Session) (source : String) :
    ((s.apply (.advance (.lane source))).lane source).work
      = if s.closed then none
        else match s.turn source with
          | none => (s.lane source).work
          | some turn => turn.work := by
  split_ifs with hc
  · rw [apply_lane_of_closed hc, lane_dropped, if_pos rfl, Lane.shed]
  · have hopen : s.closed = false := by simpa using hc
    cases hturn : s.turn source with
    | none => rw [apply_lane_of_rest hopen hturn]
    | some turn =>
        obtain ⟨t, _, happly⟩ := apply_lane_of_turn hopen hturn
        rw [happly, lane_endTurn, if_pos rfl]

lemma Sourced.apply {s : Session} (h : s.Sourced) (ht : s.tree.Sound) (m : Move) :
    (s.apply m).Sourced where
  queue source message hm := by
    obtain hq | hp := mem_queue_apply hm
    · exact h.queue source message hq
    · exact (posted_sourced ht hp).1
  found source event hm := by
    rw [(s.step_apply m).tree.find?_eq]
    obtain hq | hp := mem_queue_apply hm
    · exact h.found source event hq
    · exact (posted_sourced ht hp).2 event rfl
  work source delivery hd := by
    by_cases hm : m = .advance (.lane source)
    · subst hm
      rw [work_apply_lane] at hd
      split_ifs at hd
      cases hturn : s.turn source with
      | none =>
          rw [hturn] at hd
          exact h.work source delivery hd
      | some turn =>
          rw [hturn] at hd
          exact h.turn_work hturn hd
    · rw [(s.step_apply m).work source hm] at hd
      exact h.work source delivery hd

lemma sourced_run {s : Session} (h : s.Sourced) (ht : s.tree.Sound) (moves : List Move) :
    (s.run moves).Sourced := by
  induction moves generalizing s with
  | nil => exact h
  | cons m moves ih => exact ih (h.apply ht m) ((s.step_apply m).tree.sound ht)

lemma sourced_start (host : Host) (tree : Tree) : (start host tree).Sourced := by
  constructor <;> simp [start, lane]

end Session

end Componentry

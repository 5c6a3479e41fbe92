import Mathlib.Tactic
import Componentry.Proofs.Session.Blocks
import Componentry.Proofs.Session.Teardown
/-!
# The ledger of a session

No event is lost and none is taken twice.  `run_ledger` says so in five parts, each a definition of
its own: the count `pending` is the work that is left; settling stops only when nothing is left
(`SettlesExactly`); what the host is refused changes nothing (`KeepsRefused`); every event that is
put on a lane is recorded once (`RecordsOnce`); and after the teardown every piece of work that is
left is counted off once (`DrainsOnce`).

Behind `RecordsOnce` are the blocks of a lane: a block has one record about the event itself if it
is the block of an event, and none if it is that of a repetition (`Tree.Block.eventRecords`).
-/

namespace Componentry

/-- The event that a message delivers. -/
def Message.delivered? : Message → Option Event
  | .deliver event => some event
  | .refire .. => none

/-- A record about an event itself, rather than about an action. -/
structure Record.IsAbout (event : Event) (record : Record) : Prop where
  source : record.source = event.source
  event : record.event = event.name
  action : record.action = none

/-- The records about events among some records. -/
def eventRecords (records : List Record) : List Record :=
  records.filter fun record => record.action.isNone

@[simp] lemma eventRecords_append (records more : List Record) :
    eventRecords (records ++ more) = eventRecords records ++ eventRecords more := by
  simp [eventRecords]

namespace Tree

variable {tree : Tree}

/-- What is reported about actions is not about the event itself. -/
lemma eventRecords_reports {event : Event} {actions : List Nat} {reports : List Record}
    (h : List.Forall₂ (tree.Reports event) actions reports) : eventRecords reports = [] := by
  induction h with
  | nil => rfl
  | cons hreport _ ih =>
      obtain ⟨id, _, haction⟩ := hreport.action
      rw [eventRecords, List.filter_cons_of_neg (by simp [haction]), ← eventRecords, ih]

/-- An event that comes to an entity is recorded once. -/
lemma Answers.eventRecords {index : Nat} {event : Event} {records : List Record}
    (h : tree.Answers index event records) :
    List.Forall₂ Record.IsAbout [event] (eventRecords records) := by
  cases h with
  | dropped reason why => exact .cons ⟨rfl, rfl, rfl⟩ .nil
  | delivered reports reported =>
      have h := eventRecords_reports reported
      simp only [Componentry.eventRecords] at h
      simp only [Componentry.eventRecords, List.filter_cons, Option.isNone_none, if_true, h]
      exact .cons ⟨rfl, rfl, rfl⟩ .nil

/-- The block of an event has one record about it; that of a repetition has none. -/
lemma Block.eventRecords {message : Message} {records : List Record}
    (h : tree.Block message records) :
    List.Forall₂ Record.IsAbout message.delivered?.toList (eventRecords records) := by
  cases h with
  | delivered event index records found answers => exact answers.eventRecords
  | ignored action event => exact .nil
  | repeated action event index reports found reported =>
      rw [eventRecords_reports reported]
      exact .nil

/-- The delivery under way has left one record about its event. -/
lemma Underway.eventRecords {delivery : Delivery} {records : List Record}
    (h : tree.Underway delivery records) :
    List.Forall₂ Record.IsAbout [delivery.event] (eventRecords records) := by
  obtain ⟨index, done, todo, reports, found, bound, reported, planned⟩ := h
  have h := eventRecords_reports reported
  simp only [Componentry.eventRecords] at h
  simp only [Componentry.eventRecords, List.filter_cons, Option.isNone_none, if_true, h]
  exact .cons ⟨rfl, rfl, rfl⟩ .nil

lemma blocks_eventRecords {blocks : List (Message × List Record)}
    (h : ∀ block ∈ blocks, tree.Block block.1 block.2) :
    List.Forall₂ Record.IsAbout ((blocks.map Prod.fst).filterMap Message.delivered?)
      (Componentry.eventRecords (blocks.map Prod.snd).flatten) := by
  induction blocks with
  | nil => exact .nil
  | cons block rest ih =>
      have hfirst := (h block List.mem_cons_self).eventRecords
      have hrest := ih fun other hother => h other (List.mem_cons_of_mem block hother)
      have hall := List.rel_append hfirst hrest
      cases hd : block.1.delivered? with
      | none => simpa [hd] using hall
      | some event => simpa [hd] using hall

/-- The records about events, in blocks: one for each event that is not on the lane any more. -/
lemma InBlocks.eventRecords {lane : Lane} {arrivals : List Message} {records : List Record}
    {blocks : List (Message × List Record)} {part : List Record}
    (h : tree.InBlocks lane arrivals records blocks part) :
    ∃ handled, arrivals = handled ++ lane.queue
      ∧ List.Forall₂ Record.IsAbout (handled.filterMap Message.delivered?)
          (eventRecords records) := by
  refine ⟨_, h.arrivals, ?_⟩
  have hblocks := blocks_eventRecords h.block
  have hpart := h.part
  rw [h.records, List.filterMap_append, eventRecords_append]
  refine List.rel_append hblocks ?_
  cases hw : lane.work with
  | none =>
      rw [hw] at hpart
      rw [hpart, Lane.current, hw]
      exact .nil
  | some delivery =>
      rw [hw] at hpart
      rw [Lane.current, hw]
      exact hpart.eventRecords

end Tree

namespace Session

/-! ### The parts of the ledger -/

/-- Settling is a run of the session's own moves.  It stops with nothing on lanes, nothing under way
and no load left, unless the session is closed or the moves that it is given are used up. -/
def SettlesExactly (s : Session) : Prop :=
  ∀ (agenda : List Task) (fuel : Nat), ∃ moves,
    (∀ m ∈ moves, m.isInternal = true)
      ∧ (Schedule.settleWithin fuel ({ session := s, agenda } : Schedule).refresh).session
          = s.run moves
      ∧ moves.length ≤ fuel
      ∧ ((s.run moves).loads = [] ∧ (∀ source, ((s.run moves).lane source).IsIdle)
        ∨ s.closed = true ∨ moves.length = fuel)

/-- An event that is refused changes nothing. -/
def KeepsRefused (s : Session) : Prop :=
  (∀ event refusal, s.dispatch event = .error refusal → s.apply (.dispatch event) = s)
    ∧ ∀ source name payload refusal, s.raise source name payload = .error refusal →
        s.apply (.raise source name payload) = s

/-- What arrives on a lane by a move: an event that is dispatched or raised, or the events of what
the move has ended.  A repeat brings no event. -/
structure Brings (s : Session) (source : String) : Prop where
  dispatch : ∀ event t, s.dispatch event = .ok t →
    s.arrived source (.dispatch event) = if event.source = source then [.deliver event] else []
  raise : ∀ origin name payload t, s.raise origin name payload = .ok t →
    ∃ known, EventName.ofText? name = some known
      ∧ s.arrived source (.raise origin name payload)
          = if origin = source then [.deliver ⟨known, origin, payload⟩] else []
  completion : s.closed = false → ∀ m, (∀ event, m ≠ .dispatch event) →
    (∀ origin name payload, m ≠ .raise origin name payload) →
    (∀ generation, m ≠ .advance (.timer generation)) →
    s.arrived source m = postsTo source (s.postsOf (s.completions m))
  timer : ∀ generation,
    (s.arrived source (.advance (.timer generation))).filterMap Message.delivered? = []

/-- Every event that has arrived on a lane is recorded once, in order, as soon as it is off the
lane; when nothing is pending that is every event. -/
def RecordsOnce (s : Session) (moves : List Move) : Prop :=
  ∀ source, (s.run moves).Brings source
    ∧ (∃ handled, s.arrivals source moves = handled ++ ((s.run moves).lane source).queue
        ∧ List.Forall₂ Record.IsAbout (handled.filterMap Message.delivered?)
            (eventRecords (s.chronicle source moves)))
    ∧ ((s.run moves).pending = 0 →
        List.Forall₂ Record.IsAbout ((s.arrivals source moves).filterMap Message.delivered?)
          (eventRecords (s.chronicle source moves)))

/-- A teardown leaves the lanes and the count as they are.  From then on nothing arrives; every move
of a lane takes one piece of its work away and counts it off, and the lane is ready for the next as
long as there is one. -/
def DrainsOnce (s : Session) : Prop :=
  s.teardown.pending = s.pending ∧ ∀ source,
    s.teardown.lane source = s.lane source
      ∧ ∀ moves, s.teardown.arrivals source moves = []
        ∧ ((s.teardown.run moves).lane source).queue = (s.lane source).queue.drop
            (moves.count (.advance (.lane source)) - (s.lane source).work.toList.length)
        ∧ ((s.teardown.run moves).lane source).weight
            = (s.lane source).weight - moves.count (.advance (.lane source))
        ∧ (((s.teardown.run moves).lane source).weight ≠ 0 →
            .lane source ∈ (s.teardown.run moves).ready
              ∧ ((s.teardown.run moves).apply (.advance (.lane source))).pending + 1
                  = (s.teardown.run moves).pending)

variable {s : Session}

lemma settlesExactly (hn : s.Numbered) (hp : s.pending = s.backlog) : s.SettlesExactly := by
  intro agenda fuel
  have hcurrent := Schedule.refresh_current { session := s, agenda }
  have hsession : ({ session := s, agenda } : Schedule).refresh.session = s := rfl
  obtain ⟨moves, hsettle⟩ := Schedule.settleWithin_settling hcurrent hn hp fuel
  rw [hsession] at hsettle
  refine ⟨moves, hsettle.internal, hsettle.reached, hsettle.within, ?_⟩
  have hend := hsettle.halted
  rw [hsettle.reached, pending_run hn hp, closed_run] at hend
  have hopen : (.teardown : Move) ∉ moves := by
    intro hmem
    simpa [Move.isInternal] using hsettle.internal _ hmem
  rcases hend with h | h | h
  · exact .inl (idle_of_backlog h)
  · exact .inr (.inl (by simpa [hopen] using h))
  · exact .inr (.inr h)

lemma keepsRefused (s : Session) : s.KeepsRefused := by
  refine ⟨fun event refusal h => ?_, fun source name payload refusal h => ?_⟩
  · show s.accepted (s.dispatch event) = s
    rw [h]
    rfl
  · show s.accepted (s.raise source name payload) = s
    rw [h]
    rfl

lemma posted_dispatch {event : Event} {t : Session} (h : s.dispatch event = .ok t) :
    s.posted (.dispatch event) = [(event.source, .deliver event)] := by
  have hc : s.closed = false := by
    rw [Session.dispatch] at h
    split_ifs at h with hclosed
    simpa using hclosed
  have hposted : s.posted (.dispatch event) = if s.closed then [] else s.dispatched event := rfl
  rw [hposted, dispatched, h, if_neg (by simp [hc])]

lemma posted_raise {origin name : String} {payload : Option Json} {t : Session}
    (h : s.raise origin name payload = .ok t) :
    ∃ known, EventName.ofText? name = some known
      ∧ s.posted (.raise origin name payload) = [(origin, .deliver ⟨known, origin, payload⟩)] := by
  unfold Session.raise at h
  cases hname : EventName.ofText? name with
  | none => simp [hname] at h
  | some known =>
      rw [hname] at h
      have hposted : s.posted (.raise origin name payload)
          = s.posted (.dispatch ⟨known, origin, payload⟩) := by
        show (if s.closed then [] else s.raised origin name payload)
          = if s.closed then [] else s.dispatched ⟨known, origin, payload⟩
        unfold raised
        rw [hname]
      exact ⟨known, rfl, hposted.trans (posted_dispatch h)⟩

lemma posted_completions (hc : s.closed = false) {m : Move} (hd : ∀ event, m ≠ .dispatch event)
    (hr : ∀ origin name payload, m ≠ .raise origin name payload)
    (ht : ∀ generation, m ≠ .advance (.timer generation)) :
    s.posted m = s.postsOf (s.completions m) := by
  unfold posted
  rw [if_neg (by simp [hc])]
  split
  · rename_i event
    exact absurd rfl (hd event)
  · rename_i origin name payload
    exact absurd rfl (hr origin name payload)
  · rename_i generation
    exact absurd rfl (ht generation)
  · rfl

lemma postsTo_singleton (source origin : String) (message : Message) :
    postsTo source [(origin, message)] = if origin = source then [message] else [] := by
  rw [postsTo]
  by_cases h : origin = source <;> simp [h]

lemma brings (s : Session) (source : String) : s.Brings source where
  dispatch event t h := by rw [arrived_eq, posted_dispatch h, postsTo_singleton]
  raise origin name payload t h := by
    obtain ⟨known, hname, hposted⟩ := posted_raise h
    exact ⟨known, hname, by rw [arrived_eq, hposted, postsTo_singleton]⟩
  completion hc m hd hr ht := by rw [arrived_eq, posted_completions hc hd hr ht]
  timer generation := by
    have hposted : s.posted (.advance (.timer generation))
        = if s.closed then [] else s.refired generation := rfl
    rw [arrived_eq, hposted, refired]
    split_ifs
    · rfl
    · split
      · rfl
      · split_ifs
        · rw [postsTo_singleton]
          split_ifs <;> rfl
        · rfl

lemma recordsOnce (hc : s.closed = false) (ht : s.tree.Sound) (hs : s.Sourced) (hn : s.Numbered)
    (hp : s.pending = s.backlog) (hidle : ∀ source, (s.lane source).IsIdle) {moves : List Move}
    (hopen : .teardown ∉ moves) : s.RecordsOnce moves := by
  intro source
  have hstart : ∃ blocks part, s.tree.InBlocks (s.lane source) [] [] blocks part := by
    obtain ⟨hqueue, hwork⟩ := hidle source
    exact ⟨[], [], by simp [Lane.current, hqueue, hwork], rfl, by simp, by rw [hwork]⟩
  obtain ⟨blocks, part, hin⟩ := inBlocks_run (.refl _) ht hs hstart hc hopen
  obtain ⟨handled, harrivals, hrecords⟩ := hin.eventRecords
  rw [List.nil_append] at harrivals hrecords
  refine ⟨brings _ source, ⟨handled, harrivals, hrecords⟩, fun hpending => ?_⟩
  rw [pending_run hn hp] at hpending
  have hqueue := ((idle_of_backlog hpending).2 source).1
  rw [hqueue, List.append_nil] at harrivals
  rw [harrivals]
  exact hrecords

lemma drainsOnce (hn : s.Numbered) (hp : s.pending = s.backlog) : s.DrainsOnce := by
  refine ⟨s.teardown_pending, fun source => ⟨s.teardown_lane source, fun moves => ?_⟩⟩
  have hc := s.teardown_closed
  have hcr := closed_run_of_closed hc moves
  have hlane := lane_run_closed hc moves source
  rw [teardown_lane] at hlane
  have hpr : (s.teardown.run moves).pending = (s.teardown.run moves).backlog :=
    pending_run (s.step_teardown.numbered hn) (s.step_teardown.account hn hp) moves
  refine ⟨arrivals_of_closed hc source moves, ?_, ?_, fun hw => ?_⟩
  · rw [hlane, queue_iterate_shed]
  · rw [hlane, weight_iterate_shed]
  · exact ⟨ready_of_closed hcr hw, pending_shed hcr hpr hw⟩

/-- **No event is lost and none is taken twice.** -/
theorem run_ledger (host : Host) (document : Document) (moves : List Move) :
    ((ofDocument host document).run moves).pending = ((ofDocument host document).run moves).backlog
      ∧ ((ofDocument host document).run moves).SettlesExactly
      ∧ ((ofDocument host document).run moves).KeepsRefused
      ∧ (.teardown ∉ moves → (ofDocument host document).RecordsOnce moves)
      ∧ ((ofDocument host document).run moves).DrainsOnce := by
  have hn := numbered_start host (document.build host.catalog host.evaluator host.dispatch).tree
  have hnr := numbered_run hn moves
  have hp := pending_ofDocument host document moves
  refine ⟨hp, settlesExactly hnr hp, keepsRefused _, fun hopen => ?_, drainsOnce hnr hp⟩
  exact recordsOnce rfl (sound_ofDocument host document) (sourced_start _ _) hn rfl
    (fun _ => ⟨rfl, rfl⟩) hopen

/-- The ledger of a screen that is told of its success, before and after its lane has moved. -/
theorem run_ledger_screen :
    let screen : Document := ⟨[("id", .string "screen")]⟩
    let moves : List Move := [.raise "screen" "success" none, .advance (.lane "screen")]
    Move.teardown ∉ moves ∧ (ofDocument Host.bare screen).RecordsOnce moves :=
  ⟨by decide, (run_ledger _ _ _).2.2.2.1 (by decide)⟩

end Session

end Componentry

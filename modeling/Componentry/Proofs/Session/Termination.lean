import Mathlib.Tactic
import Componentry.Proofs.Session.Potential
/-!
# Cascades terminate

When neither the build has found a contested id nor an action loads or repeats, what comes of the
moves of the host is bounded by their number (`Session.Cascading.potential_run`): only so many
events are delivered and actions executed, and only so many moves of ready tasks are there to make,
in whatever order they are made.  A schedule that settles therefore runs out of moves with nothing
left to do: time passes only when no task is ready, and then makes one ready (`ready_elapse`), and
the move of a ready task uses up some of the potential (`Schedule.settleWithin_pending`).

`run_cascades` puts this together with the reason for it, that the events an action raises come from
further back in the tree than the one that it is run by.
-/

namespace Componentry

namespace Session

variable {s : Session} {t : Tree}

/-- At the next moment that a session waits for, one of its tasks is ready. -/
lemma ready_elapse {moment : Nat} (h : s.nextWake? = some moment) :
    (s.elapse moment).ready ≠ [] := by
  have hmem := List.mem_of_mem_filter (List.min?_mem h)
  have hclock : moment ≤ (s.elapse moment).clock := Nat.le_max_right _ _
  suffices hready : ∃ task, task ∈ (s.elapse moment).ready by
    obtain ⟨task, htask⟩ := hready
    exact List.ne_nil_of_mem htask
  simp only [ready, List.mem_append, List.mem_map, List.mem_filter]
  obtain hmem | htimer := List.mem_append.mp hmem
  · obtain hlane | hload := List.mem_append.mp hmem
    · obtain ⟨entry, hentry, hwake⟩ := List.mem_filterMap.mp hlane
      obtain ⟨delivery, hwork, rfl⟩ := Option.map_eq_some_iff.mp hwake
      have hready : entry.2.isReady (s.elapse delivery.wake).clock (s.elapse delivery.wake).closed
          = true := by
        simp [Lane.isReady, hwork, hclock]
      exact ⟨_, .inl (.inl ⟨entry, ⟨hentry, hready⟩, rfl⟩)⟩
    · obtain ⟨load, hl, hanswer⟩ := List.mem_filterMap.mp hload
      obtain ⟨answer, ha, rfl⟩ := Option.map_eq_some_iff.mp hanswer
      have hready : load.isReady (s.elapse answer.1).clock = true := by
        simp [Load.isReady, ha, hclock]
      exact ⟨_, .inl (.inr ⟨load, ⟨hl, hready⟩, rfl⟩)⟩
  · obtain ⟨timer, hmember, rfl⟩ := List.mem_map.mp htimer
    exact ⟨_, .inr ⟨timer, ⟨hmember, by simpa using hclock⟩, rfl⟩⟩

end Session

namespace Schedule

variable {t : Tree} {schedule : Schedule}

/-- After a refresh there are only ready tasks on the agenda. -/
lemma ready_of_mem_refresh {task : Task} (h : task ∈ schedule.refresh.agenda) :
    task ∈ schedule.session.ready := by
  obtain hkept | hnew := List.mem_append.mp h
  · simpa using (List.mem_filter.mp hkept).2
  · exact List.mem_of_mem_filter hnew

/-- The schedule of an open session, with the ready tasks on its agenda and no others. -/
structure Runs (t : Tree) (schedule : Schedule) : Prop where
  cascading : schedule.session.Cascading t
  isOpen : schedule.session.closed = false
  account : schedule.session.pending = schedule.session.backlog
  current : schedule.Current
  ready : ∀ task ∈ schedule.agenda, task ∈ schedule.session.ready

/-- How many moves a schedule can make at most until it has settled: before each move of a task time
may pass once. -/
def effort (t : Tree) (schedule : Schedule) : Nat :=
  2 * t.potential schedule.session + if schedule.agenda = [] then 1 else 0

namespace Runs

/-- A move of the session's own, after which the agenda is brought up to date. -/
lemma move (h : schedule.Runs t) (ht : t.Ordered) {m : Move} (hm : m.isInternal = true)
    {next : Schedule} (hnext : next.session = schedule.session.apply m) : next.refresh.Runs t := by
  have hcascading := h.cascading.apply ht m
  have hopen : (schedule.session.apply m).closed = false := by
    rw [Session.closed_apply, h.isOpen, Bool.false_or, decide_eq_false_iff_not]
    rintro rfl
    cases hm
  have haccount := (schedule.session.step_apply m).account h.cascading.numbered h.account
  rw [← hnext] at hcascading hopen haccount
  exact ⟨hcascading, hopen, haccount, refresh_current next, fun task => ready_of_mem_refresh⟩

/-- The move of a task on the agenda takes some of the effort. -/
lemma effort_turn (h : schedule.Runs t) (ht : t.Ordered) {task : Task} {rest : List Task}
    (hagenda : schedule.agenda = task :: rest) :
    effort t (schedule.turn task rest) < effort t schedule := by
  have hlaw := h.cascading.potential_apply ht (.advance task)
  have hready : task ∈ schedule.session.ready := h.ready task (by simp [hagenda])
  have hgain : t.gain (.advance task) = 0 := rfl
  have hsession := schedule.turn_session task rest
  rw [Session.turns_of_ready hready, ← hsession] at hlaw
  rw [effort, effort, if_neg (by simp [hagenda] : ¬ schedule.agenda = [])]
  split_ifs <;> omega

/-- Letting time pass takes some of the effort, since a task is ready afterwards. -/
lemma effort_elapse (h : schedule.Runs t) (ht : t.Ordered) {moment : Nat}
    (hagenda : schedule.agenda = []) (hmoment : schedule.session.nextWake? = some moment) :
    effort t (schedule.elapse moment) < effort t schedule := by
  have hlaw := h.cascading.potential_apply ht (.elapse moment)
  have hgain : t.gain (.elapse moment) = 0 := rfl
  have hsession := schedule.elapse_session moment
  have hnonempty : (schedule.elapse moment).agenda ≠ [] := by
    obtain ⟨task, htask⟩ := List.exists_mem_of_ne_nil _ (Session.ready_elapse hmoment)
    have hcurrent : (schedule.elapse moment).Current := refresh_current _
    exact List.ne_nil_of_mem (hcurrent task htask)
  rw [← hsession] at hlaw
  rw [effort, effort, if_neg hnonempty, if_pos hagenda]
  omega

end Runs

/-- **A schedule settles** if it is given its effort: with nothing pending in the end. -/
theorem settleWithin_pending (ht : t.Ordered) {fuel : Nat} (h : schedule.Runs t)
    (hfuel : effort t schedule ≤ fuel) : (settleWithin fuel schedule).session.pending = 0 := by
  induction fuel generalizing schedule with
  | zero =>
      -- A task on the agenda would take some effort, and so would the lack of one.
      cases hagenda : schedule.agenda with
      | nil =>
          rw [effort, if_pos hagenda] at hfuel
          omega
      | cons task rest =>
          have hless := h.effort_turn ht hagenda
          omega
  | succ fuel ih =>
      have hopen := h.isOpen
      rw [settleWithin]
      split_ifs with hstop
      · simpa [hopen] using hstop
      · split
        · rename_i task rest hagenda
          have hless := h.effort_turn ht hagenda
          exact ih (h.move ht rfl (schedule.turn_session task rest)) (by omega)
        · rename_i hagenda
          split
          · rename_i moment hmoment
            have hless := h.effort_elapse ht hagenda hmoment
            exact ih (h.move ht rfl (schedule.elapse_session moment)) (by omega)
          · rename_i hnone
            have hbacklog : schedule.session.backlog ≠ 0 := by
              rw [← h.account]
              simpa [hopen] using hstop
            exact absurd hnone (h.current.nextWake?_ne_none hagenda hbacklog)

end Schedule

namespace Session

variable {host : Host} {document : Document}

/-- A document without contested ids in which nothing loads or repeats. -/
lemma ordered_ofDocument
    (hids : ∀ problem ∈ (document.build host.catalog host.evaluator host.dispatch).problems,
      ∀ id, problem.fault ≠ .duplicateId id)
    (hplain : (ofDocument host document).tree.Plain) : (ofDocument host document).tree.Ordered where
  plain := hplain
  linked := (document.build_built host.catalog host.evaluator host.dispatch).linked
  sound := sound_ofDocument host document
  own := document.build_addressable host.catalog host.evaluator host.dispatch hids

lemma cascading_ofDocument (host : Host) (document : Document) :
    (ofDocument host document).Cascading (ofDocument host document).tree where
  tree := .refl _
  served := served_start _ _
  sourced := sourced_start _ _
  numbered := numbered_start _ _
  keys := List.nodup_nil

/-- A session that has just been opened has no potential. -/
lemma potential_ofDocument (host : Host) (document : Document) (t : Tree) :
    t.potential (ofDocument host document) = 0 := by
  have hlanes : ∀ source, t.laneCost source ((ofDocument host document).lane source) = 0 := by
    intro source
    simp [ofDocument, start, lane, Tree.laneCost, Tree.workCost]
  have hloads : (ofDocument host document).loads = [] := rfl
  rw [Tree.potential, Tree.lanesCost, Finset.sum_eq_zero fun source _ => hlanes source, hloads]
  rfl

/-- **Cascades terminate.**  Let a document have no contested id, only built-in actions other than
`load` and `refresh`, and no repeats.  Then the events that a lane raises come from actions behind
its own entity; the records of a run and the moves of its ready tasks are bounded by the number of
moves of the host; and as long as the session is open, it settles with nothing pending. -/
theorem run_cascades (host : Host) (document : Document)
    (hids : ∀ problem ∈ (document.build host.catalog host.evaluator host.dispatch).problems,
      ∀ id, problem.fault ≠ .duplicateId id)
    (hplain : (ofDocument host document).tree.Plain) :
    let opened := ofDocument host document
    (∀ moves source, ∀ post ∈ (opened.run moves).posted (.advance (.lane source)),
        ∃ index action, opened.tree.find? source = some index
          ∧ opened.tree.find? post.1 = some action ∧ index < action
          ∧ opened.tree.roleAt? action = some .action ∧ post.2.event.source = post.1)
      ∧ (∃ bound, ∀ moves, (opened.run moves).journal.length + opened.turnCount moves
          ≤ bound * moves.countP fun m => !m.isInternal)
      ∧ ∀ moves, .teardown ∉ moves → ∃ fuel, ∀ agenda,
          (Schedule.settleWithin fuel
            ({ session := opened.run moves, agenda } : Schedule).refresh).session.pending = 0 := by
  intro opened
  have ht : opened.tree.Ordered := ordered_ofDocument hids hplain
  have hopened : opened.Cascading opened.tree := cascading_ofDocument host document
  refine ⟨fun moves source post hpost => (hopened.run ht moves).climbs ht hpost,
    ⟨3 + 2 * opened.tree.reach 0, fun moves => ?_⟩, fun moves hmoves => ?_⟩
  · have hlaw := hopened.potential_run ht moves
    have hzero : opened.tree.potential opened = 0 := potential_ofDocument host document _
    have hjournal : opened.journal.length = 0 := rfl
    omega
  · refine ⟨2 * opened.tree.potential (opened.run moves) + 1, fun agenda => ?_⟩
    have hc : (opened.run moves).closed = false := by
      rw [closed_run]
      simpa [opened, ofDocument, start] using hmoves
    have hruns : ({ session := opened.run moves, agenda } : Schedule).refresh.Runs opened.tree :=
      ⟨hopened.run ht moves, hc, pending_ofDocument host document moves, Schedule.refresh_current _,
        fun task => Schedule.ready_of_mem_refresh⟩
    refine Schedule.settleWithin_pending ht hruns (Nat.add_le_add_left ?_ _)
    split_ifs <;> simp

/-- A screen with an action, which has an action of its own. -/
def chain : Document where
  members := [("id", .string "screen"), ("actions", .array [.object [("id", .string "first"),
    ("type", .string "alert"), ("on", .string "success"), ("actions", .array
      [.object [("id", .string "second"), ("type", .string "set"), ("target", .string "app"),
        ("on", .string "finished"), ("attributes", .object [("key", .string "seen"),
          ("value", .bool true)])]])]])]

/-- The first action raises its events further back in the tree, and the session settles. -/
theorem run_cascades_chain :
    let opened := ofDocument (Host.answering 0 (.ok .null)) chain
    let moves : List Move := [.raise "screen" "success" none, .advance (.lane "screen")]
    let s := opened.run moves
    (opened.tree.Plain ∧ (.teardown : Move) ∉ moves)
      ∧ ((s.posted (.advance (.lane "screen"))).map Prod.fst = ["first", "first"]
        ∧ opened.tree.find? "screen" = some 0 ∧ opened.tree.find? "first" = some 1)
      ∧ (∃ fuel, ∀ agenda, (Schedule.settleWithin fuel
          ({ session := s, agenda } : Schedule).refresh).session.pending = 0)
      ∧ (Schedule.settleWithin 10 ({ session := s } : Schedule).refresh).session.journal.map
          Record.action = [none, some "first", none, none, some "second"] := by
  intro opened moves s
  have hproblems : (chain.build (Host.answering 0 (.ok .null)).catalog .standard {}).problems
      = [] := by rfl
  have hentities : opened.tree.entities.map (fun e => (e.repeatDelay, e.behaviour.action?))
      = [(none, none), (none, some Action.alert), (none, some Action.set)] := by rfl
  have hplain : opened.tree.Plain := by
    have hmem : ∀ i e, opened.tree.entity? i = some e → (e.repeatDelay, e.behaviour.action?)
        ∈ [(none, none), (none, some Action.alert), (none, some Action.set)] := by
      intro i e he
      rw [← hentities]
      exact List.mem_map_of_mem (List.mem_of_getElem? he)
    refine ⟨fun i e he action ha => ?_, fun i e he => ?_⟩
    · have hcases := hmem i e he
      simp only [ha, List.mem_cons, Prod.mk.injEq, Option.some.injEq, List.not_mem_nil,
        or_false] at hcases
      obtain ⟨-, h⟩ | ⟨-, rfl⟩ | ⟨-, rfl⟩ := hcases
      · cases h
      · simp
      · simp
    · have hcases := hmem i e he
      simp only [List.mem_cons, Prod.mk.injEq, List.not_mem_nil, or_false] at hcases
      obtain ⟨h, -⟩ | ⟨h, -⟩ | ⟨h, -⟩ := hcases <;> exact h
  have hopen : (.teardown : Move) ∉ moves := by decide
  have hids : ∀ problem ∈ (chain.build (Host.answering 0 (.ok .null)).catalog .standard
      {}).problems, ∀ id, problem.fault ≠ .duplicateId id := by simp [hproblems]
  obtain ⟨-, -, hsettles⟩ := run_cascades (Host.answering 0 (.ok .null)) chain hids hplain
  exact ⟨⟨hplain, hopen⟩, by decide +kernel, hsettles moves hopen, by decide +kernel⟩

end Session

end Componentry

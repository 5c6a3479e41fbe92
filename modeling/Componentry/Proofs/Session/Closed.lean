import Mathlib.Tactic
import Componentry.Proofs.Session.Fate
import Componentry.Proofs.Session.Silence
import Componentry.Proofs.Session.States
/-!
# What a closed session still does

Two things go on after the teardown.  A load that was accepted before and has not moved yet makes
its first move all the same: its provider is handed the request and runs, or the refusal is
recorded.  And the host may begin and complete entities by hand as before; only the events of a
completion are not raised any more.

No load waits in a closed session but those that waited at the teardown, each until its first move
(`Session.waits_run`), and all other moves of tasks leave nothing: `Session.Trails` is the case
distinction and `Session.run_trails` the result for runs.  `Session.run_answers` says how every move
of the host is answered.
-/

namespace Componentry

/-- Whether a move asks the session for something that it may refuse. -/
def Move.isRequest : Move → Bool
  | .dispatch _ | .raise .. | .load _ | .begin _ | .complete .. => true
  | .teardown | .advance _ | .elapse _ => false

namespace Session

/-- The answer of a session to a move; only requests of the host are ever refused. -/
def answer (s : Session) : Move → Except DispatchError Session
  | .dispatch event => s.dispatch event
  | .raise source name payload => s.raise source name payload
  | .load id => s.load id
  | .begin id => s.begin id
  | .complete id outcome payload => s.complete id outcome payload
  | .teardown => .ok s.teardown
  | .advance task => .ok (s.advance task)
  | .elapse moment => .ok (s.elapse moment)

lemma apply_eq_accepted (s : Session) (m : Move) : s.apply m = s.accepted (s.answer m) := by
  cases m <;> rfl

variable {s : Session}

/-! ### Loads that wait -/

/-- A closed session accepts no load. -/
lemma admitted_of_closed (hc : s.closed = true) (m : Move) : s.admitted m = [] := by
  cases m with
  | load id => rw [admitted, load_of_closed hc]
  | advance task =>
      cases task with
      | lane source => rw [admitted, if_pos hc]
      | _ => rfl
  | _ => rfl

/-- A load that waits after a move of a closed session has waited before, and the move was not its
own. -/
lemma waits_apply (hc : s.closed = true) (hn : s.Numbered) {m : Move} {load : Load}
    (hl : load ∈ (s.apply m).loads) (ha : load.answer = none) :
    load ∈ s.loads ∧ m ≠ .advance (.load load.ticket) := by
  by_cases htask : m.isLoadTask = true
  · obtain ⟨ticket, rfl⟩ := Move.exists_of_isLoadTask htask
    have hmeets := meets_apply hn ticket
    have hne : load.ticket ≠ ticket := by
      intro heq
      have hanswered := hmeets.answered load hl heq
      simp [ha] at hanswered
    refine ⟨hmeets.old load hl hne, fun heq => hne ?_⟩
    simpa using heq.symm
  · have haccepts := s.accepts_apply (by simpa using htask)
    rw [admitted_of_closed hc] at haccepts
    rw [haccepts.loads] at hl
    refine ⟨by simpa using hl, ?_⟩
    rintro rfl
    exact htask rfl

/-- A load that waits after a run of a closed session has waited all along, and has not moved. -/
lemma waits_run (hc : s.closed = true) (hn : s.Numbered) {moves : List Move} {load : Load}
    (hl : load ∈ (s.run moves).loads) (ha : load.answer = none) :
    load ∈ s.loads ∧ .advance (.load load.ticket) ∉ moves := by
  induction moves using List.reverseRecOn with
  | nil => exact ⟨hl, by simp⟩
  | append_singleton moves m ih =>
      rw [run_append, run_cons, run_nil] at hl
      obtain ⟨hbefore, hm⟩ :=
        waits_apply (closed_run_of_closed hc moves) (numbered_run hn moves) hl ha
      obtain ⟨hfirst, hunmoved⟩ := ih hbefore
      refine ⟨hfirst, fun hmem => ?_⟩
      obtain hmem | hlast := List.mem_append.mp hmem
      · exact hunmoved hmem
      · exact hm (List.mem_singleton.mp hlast).symm

/-! ### Moves that leave nothing -/

/-- A closed session raises no event, whatever its name is. -/
lemma raise_eq_error (hc : s.closed = true) (source name : String) (payload : Option Json) :
    s.raise source name payload = .error
      (if (EventName.ofText? name).isSome then .sessionClosed else .unknownEvent name) := by
  split_ifs with hname
  · exact raise_of_closed hc source hname payload
  · unfold raise
    rw [Option.not_isSome_iff_eq_none.mp hname]

/-- In a closed session only the moves of loads write records or send requests. -/
lemma nothing_of_not_loadTask (hc : s.closed = true) {m : Move} (hm : m.isLoadTask = false) :
    s.written m = [] ∧ (s.apply m).requests = s.requests := by
  cases m with
  | dispatch event =>
      refine ⟨written_eq s _, ?_⟩
      rw [apply_eq_accepted, answer, dispatch_of_closed hc]
      rfl
  | raise source name payload =>
      refine ⟨written_eq s _, ?_⟩
      rw [apply_eq_accepted, answer, raise_eq_error hc]
      rfl
  | load id =>
      refine ⟨written_eq s _, ?_⟩
      rw [apply_eq_accepted, answer, load_of_closed hc]
      rfl
  | begin id =>
      refine ⟨written_eq s _, ?_⟩
      rw [apply_eq_accepted, answer, begin]
      split
      · rfl
      · split <;> rfl
  | complete id outcome payload =>
      refine ⟨written_eq s _, ?_⟩
      rw [apply_eq_accepted, answer, complete]
      split
      · rfl
      · split
        · rfl
        · rename_i index e _ _ state _
          have hc' : (s.setState index state).closed = true := hc
          rw [raiseLifecycle_of_closed hc']
          rfl
  | teardown =>
      refine ⟨written_eq s _, ?_⟩
      rw [apply_eq_accepted, answer, teardown_of_closed hc]
      rfl
  | elapse moment => exact ⟨written_eq s _, rfl⟩
  | advance task =>
      cases task with
      | load ticket => cases hm
      | lane source =>
          rw [written_eq, records, if_pos hc, apply_lane_of_closed hc, dropped]
          refine ⟨rfl, ?_⟩
          split_ifs <;> rfl
      | timer generation =>
          refine ⟨written_eq s _, ?_⟩
          show (s.advanceTimer generation).requests = s.requests
          rw [advanceTimer]
          split
          · rfl
          · split_ifs
            · simp only [enqueue, hc, if_true]
            · rfl

/-- The move of a load that has asked its provider, or is gone, leaves nothing in a closed session:
the answer is dropped. -/
lemma nothing_of_answered (hc : s.closed = true) {ticket : Nat}
    (h : ∀ load ∈ s.loads, load.ticket = ticket → load.answer.isSome) :
    s.written (.advance (.load ticket)) = [] ∧ s.handedBy ticket = []
      ∧ (s.apply (.advance (.load ticket))).requests = s.requests
      ∧ (s.apply (.advance (.load ticket))).tree = s.tree := by
  rw [written_eq, records, handedBy]
  show _ ∧ _ ∧ (s.advanceLoad ticket).requests = s.requests ∧ (s.advanceLoad ticket).tree = s.tree
  rw [advanceLoad]
  cases hfind : s.loads.find? fun load => load.ticket = ticket with
  | none => exact ⟨rfl, rfl, rfl, rfl⟩
  | some load =>
      have hticket : load.ticket = ticket := by simpa using List.find?_some hfind
      obtain ⟨answer, ha⟩ := Option.isSome_iff_exists.mp
        (h load (List.mem_of_find?_eq_some hfind) hticket)
      dsimp only
      rw [ha]
      refine ⟨rfl, rfl, ?_⟩
      dsimp only
      split_ifs
      · rw [endLoad, if_pos hc]
        exact ⟨rfl, rfl⟩
      · exact ⟨rfl, rfl⟩

/-! ### What a move leaves -/

/-- What a move leaves that comes after a run of a closed session. -/
inductive Trails (s : Session) (moves : List Move) (m : Move) : Prop
  /-- A load that waited makes its first move and meets its fate. -/
  | starts (load : Load) (mem : load ∈ s.loads) (waits : load.answer = none)
      (move : m = .advance (.load load.ticket)) (first : m ∉ moves) (fate : LoadFate)
      (met : (s.run moves).fate load.provider = fate)
      (after : (s.run moves).apply m = (s.run moves).meet load fate)
      (requests : (s.run moves).handedBy load.ticket = fate.requests)
      (records : (s.run moves).written m = fate.records)
  /-- No record is written and no request handed to a transport or a provider, and if the move is
  one of a load then the tree stays as it is. -/
  | nothing (records : (s.run moves).written m = [])
      (sent : ((s.run moves).apply m).requests = (s.run moves).requests)
      (loads : ∀ ticket, m = .advance (.load ticket) → (s.run moves).handedBy ticket = []
        ∧ ((s.run moves).apply m).tree = (s.run moves).tree)

/-- **Every move** of a closed session leaves this. -/
theorem trails_run (hc : s.closed = true) (hn : s.Numbered) (moves : List Move) (m : Move) :
    s.Trails moves m := by
  have hc' : (s.run moves).closed = true := closed_run_of_closed hc moves
  have hn' : (s.run moves).Numbered := numbered_run hn moves
  by_cases htask : m.isLoadTask = true
  · obtain ⟨ticket, rfl⟩ := Move.exists_of_isLoadTask htask
    by_cases hwaits : ∃ load ∈ (s.run moves).loads, load.ticket = ticket ∧ load.answer = none
    · obtain ⟨load, hl, rfl, ha⟩ := hwaits
      obtain ⟨hmem, hfirst⟩ := waits_run hc hn hl ha
      obtain ⟨happly, hhanded, hwritten⟩ := apply_of_unanswered hn' hl ha
      exact .starts load hmem ha rfl hfirst _ rfl happly hhanded hwritten
    · have hanswered : ∀ load ∈ (s.run moves).loads, load.ticket = ticket →
          load.answer.isSome := by
        intro load hl hticket
        rw [Option.isSome_iff_ne_none]
        exact fun ha => hwaits ⟨load, hl, hticket, ha⟩
      obtain ⟨hwritten, hhanded, hsent, htree⟩ := nothing_of_answered hc' hanswered
      refine .nothing hwritten hsent fun other hother => ?_
      obtain rfl : ticket = other := by simpa using hother
      exact ⟨hhanded, htree⟩
  · obtain ⟨hwritten, hsent⟩ := nothing_of_not_loadTask hc' (by simpa using htask)
    refine .nothing hwritten hsent fun ticket hm => ?_
    rw [hm] at htask
    exact absurd rfl htask

/-- Without a load that waits, no record is written and no request sent any more. -/
lemma nothing_of_none_waits (hc : s.closed = true) (hn : s.Numbered)
    (hnone : ∀ load ∈ s.loads, load.answer.isSome) (moves : List Move) :
    (s.run moves).journal = s.journal ∧ (s.run moves).requests = s.requests := by
  induction moves using List.reverseRecOn with
  | nil => exact ⟨rfl, rfl⟩
  | append_singleton moves m ih =>
      rw [run_append, run_cons, run_nil]
      cases trails_run hc hn moves m with
      | starts load mem waits =>
          have hanswered := hnone load mem
          simp [waits] at hanswered
      | nothing records sent =>
          rw [((s.run moves).step_apply m).journal, ← written_eq, records, List.append_nil, sent]
          exact ih

/-- When an entity can be begun by hand, and what this does. -/
lemma begin_eq_ok_iff {id : String} {t : Session} : s.begin id = .ok t ↔
    ∃ i state, s.tree.find? id = some i ∧ s.state? i = some state ∧ state ≠ .running
      ∧ t = s.setState i .running := by
  rw [begin]
  constructor
  · intro h
    split at h
    · cases h
    · rename_i i e ha
      obtain ⟨hfind, he⟩ := addressed_eq_ok ha
      split at h
      · cases h
      · rename_i state hbegin
        obtain ⟨hidle, rfl⟩ := LifecycleState.begin?_eq_ok hbegin
        exact ⟨i, e.state, hfind, state?_of_entity? he, hidle, (Except.ok.inj h).symm⟩
  · rintro ⟨i, state, hfind, hstate, hidle, rfl⟩
    obtain ⟨e, he, rfl⟩ := Option.map_eq_some_iff.mp hstate
    have ha : s.addressed id = .ok (i, e) := by rw [addressed, hfind]; simp only [he]
    rw [ha]
    dsimp only
    rw [LifecycleState.begin?_of_ne hidle]

/-- When an entity of a closed session can be completed by hand, and what this does: no event is
raised. -/
lemma complete_eq_ok_iff (hc : s.closed = true) {id : String} {outcome : LifecycleEvent}
    {payload : Option Json} {t : Session} : s.complete id outcome payload = .ok t ↔
      ∃ i, s.tree.find? id = some i ∧ s.state? i = some .running
        ∧ t = s.setState i (.settled outcome) := by
  have hsilent : ∀ i state events, (s.setState i state).raiseLifecycle i events
      = s.setState i state := fun i state events =>
    raiseLifecycle_of_closed (s := s.setState i state) hc i events
  rw [complete]
  constructor
  · intro h
    split at h
    · cases h
    · rename_i i e ha
      obtain ⟨hfind, he⟩ := addressed_eq_ok ha
      split at h
      · cases h
      · rename_i state hcomplete
        obtain ⟨hrunning, rfl⟩ := LifecycleState.complete?_eq_ok hcomplete
        rw [hsilent, Except.ok.injEq] at h
        exact ⟨i, hfind, by rw [state?_of_entity? he, hrunning], h.symm⟩
  · rintro ⟨i, hfind, hstate, rfl⟩
    obtain ⟨e, he, hrunning⟩ := Option.map_eq_some_iff.mp hstate
    have ha : s.addressed id = .ok (i, e) := by rw [addressed, hfind]; simp only [he]
    rw [ha]
    dsimp only
    rw [hrunning]
    simp only [LifecycleState.complete?, hsilent]

/-- The state of an entity that is set to another one is not what it was. -/
lemma state?_setState_ne {i : Nat} {before after : LifecycleState}
    (hbefore : s.state? i = some before) (hne : before ≠ after) :
    (s.setState i after).state? i ≠ s.state? i := by
  obtain ⟨e, he, -⟩ := Option.map_eq_some_iff.mp hbefore
  have hafter : (s.setState i after).state? i = some after := by
    rw [state?, setState, modifyEntity, Tree.entity?_modify_self, he]
    rfl
  rw [hafter, hbefore, ne_eq, Option.some.injEq]
  exact hne.symm

/-- A closed session refuses a request exactly if the request leaves the states of all entities
alone. -/
lemma refused_iff (hc : s.closed = true) {m : Move} (hm : m.isRequest = true) :
    (∃ refusal, s.answer m = .error refusal) ↔ ∀ i, (s.apply m).state? i = s.state? i := by
  constructor
  · rintro ⟨refusal, hrefused⟩ i
    rw [apply_eq_accepted, hrefused]
    rfl
  · intro hkept
    cases hanswer : s.answer m with
    | error refusal => exact ⟨refusal, rfl⟩
    | ok t =>
        exfalso
        rw [apply_eq_accepted, hanswer] at hkept
        cases m with
        | dispatch event => simp [answer, dispatch_of_closed hc] at hanswer
        | raise source name payload => simp [answer, raise_eq_error hc] at hanswer
        | load id => simp [answer, load_of_closed hc] at hanswer
        | begin id =>
            obtain ⟨i, state, -, hstate, hidle, rfl⟩ := begin_eq_ok_iff.mp hanswer
            exact state?_setState_ne hstate hidle (hkept i)
        | complete id outcome payload =>
            obtain ⟨i, -, hstate, rfl⟩ := (complete_eq_ok_iff hc).mp hanswer
            exact state?_setState_ne hstate (settled_ne_running outcome).symm (hkept i)
        | teardown | advance task | elapse moment => cases hm

/-- **How a closed session answers.**  Events and loads are refused.  An entity is begun by hand
exactly if it is not running, and completed by hand exactly if it is; this sets its state and does
nothing else, so that a completion raises no event.  A request is refused exactly if it leaves the
states of all entities alone. -/
theorem run_answers (host : Host) (document : Document) (before after : List Move) :
    let s := (((ofDocument host document).run before).teardown).run after
    (∀ event, s.dispatch event = .error .sessionClosed)
      ∧ (∀ source name payload, s.raise source name payload = .error
        (if (EventName.ofText? name).isSome then .sessionClosed else .unknownEvent name))
      ∧ (∀ id, s.load id = .error .sessionClosed)
      ∧ (∀ id t, s.begin id = .ok t ↔ ∃ i state, s.tree.find? id = some i
        ∧ s.state? i = some state ∧ state ≠ .running ∧ t = s.setState i .running)
      ∧ (∀ id outcome payload t, s.complete id outcome payload = .ok t ↔
        ∃ i, s.tree.find? id = some i ∧ s.state? i = some .running
          ∧ t = s.setState i (.settled outcome))
      ∧ ∀ m, m.isRequest = true →
        ((∃ refusal, s.answer m = .error refusal) ↔ ∀ i, (s.apply m).state? i = s.state? i) := by
  intro s
  have hc : s.closed = true := closed_run_of_closed (teardown_closed _) after
  exact ⟨dispatch_of_closed hc, raise_eq_error hc, load_of_closed hc,
    fun _ _ => begin_eq_ok_iff, fun _ _ _ _ => complete_eq_ok_iff hc, fun _ => refused_iff hc⟩

/-- The host begins and completes an action after the teardown. -/
theorem run_answers_button :
    let opened := ofDocument (Host.answering 0 (.ok .null)) button
    let s := opened.teardown
    let begun := s.run [.begin "act"]
    (Move.begin "act").isRequest = true
      ∧ (s.state? 1 = some .idle ∧ begun.state? 1 = some .running)
      ∧ s.begin "act" = .ok (s.setState 1 .running)
      ∧ begun.complete "act" .success none = .ok (begun.setState 1 .finished)
      ∧ ¬ ∃ refusal, s.answer (.begin "act") = .error refusal := by
  intro opened s begun
  have hfound : s.tree.find? "act" = some 1 ∧ begun.tree.find? "act" = some 1 := by decide +kernel
  have hstates : s.state? 1 = some .idle ∧ begun.state? 1 = some .running := by decide +kernel
  obtain ⟨-, -, -, hbegin, -, hrefused⟩ :=
    run_answers (Host.answering 0 (.ok .null)) button [] []
  obtain ⟨-, -, -, -, hcomplete, -⟩ :=
    run_answers (Host.answering 0 (.ok .null)) button [] [.begin "act"]
  refine ⟨rfl, hstates, (hbegin "act" _).mpr ⟨1, .idle, hfound.1, hstates.1, by simp, rfl⟩,
    (hcomplete "act" .success none _).mpr ⟨1, hfound.2, hstates.2, rfl⟩, fun h => ?_⟩
  have hkept := (hrefused (.begin "act") rfl).mp h 1
  exact absurd (hstates.2.symm.trans (hkept.trans hstates.1)) (by simp)

end Session

end Componentry

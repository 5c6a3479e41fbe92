import Mathlib.Tactic
import Componentry.Proofs.Session.Flight
/-!
# Completions and the lifecycle of a provider

A provider leaves `running` by a completion: the host completes it by hand, or the result of a load
is taken.  The host is refused unless the provider is running (`Session.RefusesByHand`).  A result
is taken in any state (`Session.Takes`): its events are raised and the payload of a success is kept
even if the host has completed the provider in the meantime; only the state then stays as it is.

So what the events of a provider follow depends on the host.  If it never completes the provider
while a load of it is in flight (`Session.KeepsClear`), then every completion meets a running
provider, and there are at most as many as there are moves into `running`.  In general there may be
twice as many.  `Session.run_completions` has both bounds.  They come from one account of a move
(`Session.Handles.account`): events are paid for by leaving `running`, or by a late result, one that
is taken while the provider is not running.
-/

namespace Componentry

namespace Session

/-- Whether an entity is running, as a number. -/
def runs (s : Session) (p : Nat) : Nat := if s.state? p = some .running then 1 else 0

/-- Whether a move takes an entity into `running`, as a number. -/
def enters (s : Session) (p : Nat) (m : Move) : Nat :=
  if s.state? p ≠ some .running ∧ (s.apply m).state? p = some .running then 1 else 0

/-- How often an entity is taken into `running` along a run. -/
def entries (s : Session) (p : Nat) : List Move → Nat
  | [] => 0
  | m :: moves => s.enters p m + (s.apply m).entries p moves

/-- The completions of an entity that events are raised for along a run. -/
def ended (s : Session) (p : Nat) : List Move → List Completion
  | [] => []
  | m :: moves => s.ends p m ++ (s.apply m).ended p moves

/-- A completion by hand is refused unless the entity is running, and then it changes nothing and
raises no events. -/
def RefusesByHand (s : Session) (p : Nat) : Prop :=
  ∀ id, s.tree.find? id = some p → s.state? p ≠ some .running →
    ∀ outcome payload, (∃ refusal, s.complete id outcome payload = .error refusal)
      ∧ s.apply (.complete id outcome payload) = s
      ∧ ∀ source, s.arrived source (.complete id outcome payload) = []

/-- An open session takes the result of every load in flight whose answer has come: the payload of a
success is kept, and the entity settles if it is running. -/
def TakesResults (s : Session) (p : Nat) : Prop :=
  s.closed = false → ∀ load ∈ s.inFlight p, load.isReady s.clock = true → ∃ e result,
    s.Takes p load e result (s.apply (.advance (.load load.ticket)))
      ∧ loaded e result = { e with
          state := if e.state = .running then stateOf result else e.state
          payload := payloadOf e result }

/-- Events are raised for an entity only if the host completes it while it is running, or the result
of a load of it is taken. -/
def RaisesByCompletion (s : Session) (p : Nat) : Prop :=
  ∀ m, s.ends p m ≠ [] →
    (∃ id outcome payload, m = .complete id outcome payload ∧ s.tree.find? id = some p
        ∧ s.state? p = some .running)
      ∨ ∃ load ∈ s.inFlight p, m = .advance (.load load.ticket)

/-- The host completes an entity by hand only while no load of it is in flight. -/
def KeepsClear (s : Session) (p : Nat) (moves : List Move) : Prop :=
  ∀ before after id outcome payload, moves = before ++ .complete id outcome payload :: after →
    s.tree.find? id = some p → (s.run before).inFlight p = []

/-! ### One move -/

section Step

variable {s : Session} {p : Nat} {m : Move}

lemma runs_of_entity? {e : Entity} (he : s.tree.entity? p = some e) :
    s.runs p = if e.state = .running then 1 else 0 := by
  simp only [runs, state?_of_entity? he, Option.some.injEq]

lemma Spares.runs_eq {t : Session} (h : s.Spares p t) : t.runs p = s.runs p := by
  rw [runs, h.state, runs]

/-- A move from a state other than `running` into `running`. -/
lemma enters_eq_one {e e' : Entity} (he : s.tree.entity? p = some e) (hstate : e.state ≠ .running)
    (he' : (s.apply m).tree.entity? p = some e') (hstate' : e'.state = .running) :
    s.enters p m = 1 := by
  refine if_pos ⟨?_, ?_⟩
  · rw [state?_of_entity? he, ne_eq, Option.some.injEq]
    exact hstate
  · rw [state?_of_entity? he', hstate']

lemma settled_ne_running (outcome : LifecycleEvent) :
    LifecycleState.settled outcome ≠ .running := by
  cases outcome <;> simp [LifecycleState.settled]

lemma ends_length_le_one {c : Completion} (h : s.ends p m = if s.closed then [] else [c]) :
    (s.ends p m).length ≤ 1 := by
  rw [h]
  split_ifs <;> simp

/-- A result leaves no provider running. -/
lemma loaded_state_ne_running (e : Entity) (result : LoadResult) :
    (loaded e result).state ≠ .running := by
  by_cases hstate : e.state = .running
  · rw [loaded_of_running hstate]
    exact stateOf_ne_running result
  · rw [loaded_of_not_running hstate]
    exact hstate

/-- What a move costs: events are raised by leaving `running`, or by a late result, that of a load
in flight while the provider is not running. -/
lemma Handles.account (h : s.Handles p m (s.apply m)) :
    ((s.ends p m).length + (s.apply m).runs p ≤ s.enters p m + s.runs p
        ∧ ((s.apply m).inFlight p).length ≤ s.enters p m + (s.inFlight p).length)
      ∨ (s.inFlight p ≠ [] ∧ s.state? p ≠ some .running ∧ (s.ends p m).length = 1
        ∧ (s.apply m).runs p = 0
        ∧ ((s.apply m).inFlight p).length + 1 = (s.inFlight p).length) := by
  cases h with
  | spared spares ends =>
      refine .inl ⟨?_, ?_⟩
      · rw [ends, spares.runs_eq, List.length_nil]
        omega
      · rw [spares.inFlight]
        omega
  | begun id move found e entity state after inFlight ends =>
      have hruns := runs_of_entity? after
      rw [if_pos rfl] at hruns
      rw [ends, inFlight, hruns, enters_eq_one entity state after rfl, List.length_nil]
      exact .inl ⟨by omega, by omega⟩
  | completed id outcome payload move found e entity state after inFlight ends =>
      have hle := ends_length_le_one ends
      have hruns := runs_of_entity? entity
      have hruns' := runs_of_entity? after
      rw [if_pos state] at hruns
      rw [if_neg (settled_ne_running outcome)] at hruns'
      rw [inFlight]
      exact .inl ⟨by omega, by omega⟩
  | asked load arrival result move e entity state after inFlight ends =>
      have hruns := runs_of_entity? after
      rw [if_pos rfl] at hruns
      rw [ends, hruns, inFlight.length_eq, enters_eq_one entity state after rfl, List.length_nil,
        List.length_cons]
      exact .inl ⟨by omega, by omega⟩
  | landed load e result move takes =>
      have hlength := takes.inFlight.length_eq
      have hends : (s.ends p m).length = 1 := by rw [move, takes.ends, List.length_singleton]
      have hruns := runs_of_entity? takes.entity
      have hruns' := runs_of_entity? takes.after
      rw [List.length_cons] at hlength
      rw [if_neg (loaded_state_ne_running e result)] at hruns'
      by_cases hstate : e.state = .running
      · rw [if_pos hstate] at hruns
        exact .inl ⟨by omega, by omega⟩
      · refine .inr ⟨List.ne_nil_of_mem takes.flies, ?_, hends, hruns', hlength.symm⟩
        rw [state?_of_entity? takes.entity, ne_eq, Option.some.injEq]
        exact hstate
  | dropped load move flies closed entity inFlight ends =>
      have hlength := inFlight.length_eq
      have hruns : (s.apply m).runs p = s.runs p := by rw [runs, state?, entity, runs, state?]
      rw [List.length_cons] at hlength
      rw [ends, hruns, List.length_nil]
      exact .inl ⟨by omega, by omega⟩

lemma Orderly.takesResults (h : s.Orderly) (hp : s.tree.roleAt? p = some .dataProvider) :
    s.TakesResults p := by
  intro hopen load hl hready
  obtain ⟨e, he, -⟩ := Option.map_eq_some_iff.mp hp
  obtain ⟨arrival, result, ha, harrived⟩ := exists_answer hl hready
  refine ⟨e, result, takes_apply h.numbered hopen he hl ha harrived, ?_⟩
  split_ifs with hstate
  · exact loaded_of_running hstate result
  · exact loaded_of_not_running hstate result

/-- What raises events for a provider: the host completes it while it is running, or the result of a
load in flight is taken. -/
lemma Handles.of_ends_ne_nil {t : Session} (h : s.Handles p m t) (hends : s.ends p m ≠ []) :
    (∃ id outcome payload, m = .complete id outcome payload ∧ s.tree.find? id = some p
        ∧ s.state? p = some .running)
      ∨ ∃ load ∈ s.inFlight p, m = .advance (.load load.ticket) := by
  cases h with
  | spared spares ends => exact absurd ends hends
  | begun id move found e entity state after inFlight ends => exact absurd ends hends
  | asked load arrival result move e entity state after inFlight ends => exact absurd ends hends
  | dropped load move flies closed entity inFlight ends => exact absurd ends hends
  | landed load e result move takes => exact .inr ⟨load, takes.flies, move⟩
  | completed id outcome payload move found e entity state =>
      exact .inl ⟨id, outcome, payload, move, found, by rw [state?_of_entity? entity, state]⟩

/-- The host is refused if the entity is not running. -/
lemma refusesByHand (s : Session) (p : Nat) : s.RefusesByHand p := by
  intro id hfind hstate outcome payload
  have hrefused : ∃ refusal, s.complete id outcome payload = .error refusal
      ∧ s.completions (.complete id outcome payload) = [] := by
    simp only [complete, completions]
    cases ha : s.addressed id with
    | error refusal => exact ⟨refusal, rfl, rfl⟩
    | ok found =>
        obtain ⟨index, e⟩ := found
        obtain ⟨hindex, he⟩ := addressed_eq_ok ha
        obtain rfl : p = index := Option.some.inj (hfind.symm.trans hindex)
        dsimp only
        cases hcomplete : e.state.complete? outcome with
        | error transition => exact ⟨_, rfl, rfl⟩
        | ok state =>
            obtain ⟨hrunning, -⟩ := LifecycleState.complete?_eq_ok hcomplete
            rw [state?_of_entity? he, hrunning] at hstate
            exact absurd rfl hstate
  obtain ⟨refusal, herror, hnone⟩ := hrefused
  refine ⟨⟨refusal, herror⟩, ?_, fun source => ?_⟩
  · show s.accepted (s.complete id outcome payload) = s
    rw [herror]
    rfl
  · rw [arrived_eq, s.posted_eq_nil hnone rfl, postsTo_nil]

end Step

/-! ### Runs -/

/-- A bound on the events along a run, from one on the events of every move. -/
lemma ended_length_le {s : Session} {p rate : Nat} (potential : Session → Nat) {moves : List Move}
    (hstep : ∀ front m back, moves = front ++ m :: back →
      ((s.run front).ends p m).length + potential ((s.run front).apply m)
        ≤ rate * (s.run front).enters p m + potential (s.run front)) :
    (s.ended p moves).length + potential (s.run moves)
      ≤ rate * s.entries p moves + potential s := by
  induction moves generalizing s with
  | nil => simp [ended, entries]
  | cons m moves ih =>
      have hfirst := hstep [] m moves rfl
      have hrest := @ih (s.apply m) fun front m' back heq =>
        hstep (m :: front) m' back (by rw [heq]; rfl)
      simp only [run_nil] at hfirst
      simp only [ended, entries, List.length_append, run_cons, Nat.mul_add]
      omega

section Runs

variable {host : Host} {document : Document} {p : Nat}

lemma KeepsClear.of_append {s : Session} {moves more : List Move}
    (h : s.KeepsClear p (moves ++ more)) : s.KeepsClear p moves := by
  rintro before after id outcome payload rfl hfind
  exact h before (after ++ more) id outcome payload (by simp) hfind

/-- If the host never completes the provider with a load of it in flight, the provider stays
guarded. -/
lemma guarded_run (hp : (ofDocument host document).tree.roleAt? p = some .dataProvider)
    {moves : List Move} (hclear : (ofDocument host document).KeepsClear p moves) :
    ((ofDocument host document).run moves).Guarded p := by
  induction moves using List.reverseRecOn with
  | nil => exact .of_nil rfl
  | append_singleton moves m ih =>
      rw [run_append, run_cons, run_nil]
      refine (handles_run hp moves m).guarded (ih hclear.of_append) ?_
      rintro id outcome payload rfl hfind
      rw [((ofDocument host document).sameStructure_run moves).find?_eq] at hfind
      exact hclear moves [] id outcome payload rfl hfind

end Runs

/-- **What the events of a provider follow.**  The host cannot complete a provider that is not
running.  The result of a load is taken in every state: its events are raised and the payload of a
success is kept, but only a running provider settles.  Nothing else raises events.  Along any
stretch of a run there are at most two sets of events for each move into `running`, beside those of
the loads that are in flight at its start and of a provider that is running then; and at most one,
each of a provider that is running, if the host completes it only while no load of it is in
flight. -/
theorem run_completions (host : Host) (document : Document) {p : Nat}
    (hp : (ofDocument host document).tree.roleAt? p = some .dataProvider)
    (before after : List Move) :
    let s := (ofDocument host document).run before
    s.RefusesByHand p ∧ s.TakesResults p ∧ s.RaisesByCompletion p
      ∧ (s.ended p after).length
        ≤ 2 * s.entries p after + (s.runs p + (s.inFlight p).length)
      ∧ ((ofDocument host document).KeepsClear p (before ++ after) →
        (s.inFlight p ≠ [] → s.state? p = some .running)
          ∧ (s.ended p after).length ≤ s.entries p after + s.runs p) := by
  intro s
  have hstep : ∀ front m, (s.run front).Handles p m ((s.run front).apply m) := fun front m => by
    have h := handles_run hp (before ++ front) m
    rwa [run_append] at h
  refine ⟨refusesByHand s p,
    (orderly_run host document before).takesResults (roleAt?_run hp before),
    fun m => (hstep [] m).of_ends_ne_nil, ?_, fun hclear => ⟨?_, ?_⟩⟩
  · have hbound : (s.ended p after).length
          + ((s.run after).runs p + ((s.run after).inFlight p).length)
        ≤ 2 * s.entries p after + (s.runs p + (s.inFlight p).length) :=
      ended_length_le (fun t => t.runs p + (t.inFlight p).length) fun front m back _ => by
        have haccount := (hstep front m).account
        omega
    omega
  · exact (guarded_run hp hclear.of_append).running
  · have hbound : (s.ended p after).length + (s.run after).runs p
        ≤ 1 * s.entries p after + s.runs p :=
      ended_length_le (fun t => t.runs p) fun front m back heq => by
        have hguarded : (s.run front).Guarded p := by
          rw [heq, ← List.append_assoc] at hclear
          have h := guarded_run hp hclear.of_append
          rwa [run_append] at h
        have haccount := (hstep front m).account
        have hrunning := hguarded.running
        rcases haccount with haccount | ⟨hflight, hstate, -⟩
        · omega
        · exact absurd (hrunning hflight) hstate
    omega

/-- The host completes a provider with a load in flight, and the result of the load is taken all the
same: it leaves its payload in a provider that has failed, and a second set of events. -/
theorem run_completions_late :
    let opened := ofDocument (Host.answering 10 (.ok (.string "news"))) feed
    let before : List Move :=
      [.load "feed", .advance (.load 0), .complete "feed" .failed none, .elapse 10]
    let after : List Move := [.advance (.load 0)]
    let s := opened.run before
    opened.tree.roleAt? 1 = some .dataProvider
      ∧ (s.state? 1 = some .failed ∧ s.payload? 1 = none)
      ∧ (s.ended 1 after).length = 1
      ∧ ((s.run after).state? 1 = some .failed ∧ (s.run after).payload? 1 = some (.string "news"))
      ∧ s.RefusesByHand 1 ∧ s.TakesResults 1 ∧ s.RaisesByCompletion 1
      ∧ (s.ended 1 after).length ≤ 2 * s.entries 1 after + (s.runs 1 + (s.inFlight 1).length) := by
  intro opened before after s
  have hp : opened.tree.roleAt? 1 = some .dataProvider := by decide +kernel
  obtain ⟨hrefuses, htakes, hraises, hbound, -⟩ := run_completions _ feed hp before after
  exact ⟨hp, by decide +kernel, by decide +kernel, by decide +kernel, hrefuses, htakes, hraises,
    hbound⟩

end Session

end Componentry

import Mathlib.Tactic
import Componentry.Proofs.Build.WellFormed
import Componentry.Proofs.Session.Serving
import Componentry.Proofs.Session.Silence
import Componentry.Proofs.Text
import Componentry.Proofs.Ticker
/-!
# Repeats

A binding repeats if its source supports repetition and its action has an interval other than zero
(`Tree.repeatInterval?`).  When a delivery has run such an action, the repeat starts with a timer
(`Session.begun?`); from then on the timer ticks (`Session.ticked`), and every tick puts the action on
the lane of the source once more.

Three things end a timer: a teardown, a repeat that starts under its id, and its last tick
(`Session.Ends`).  No other move touches it: `Session.Timed.mem_apply` says so of one move, and
`Session.Timed.goesOn` and `Session.Timed.ended` of a whole run.  `Session.run_repeats` is the result
for the repeats of a session.

The id of a repeat is put together from the source, the event and the id of the action.  Bindings of
different actions may have the same one, and then a repeat stops that of another binding.  This does
not happen if no id of an entity is contested and no source has a slash in its id
(`Session.eq_of_labels`).
-/

namespace Componentry

/-- A timer after several ticks. -/
def Timer.after {α : Type} (timer : Timer α) (ticks : Nat) : Timer α :=
  { timer with
    deadline := timer.deadline + ticks * timer.interval
    remaining := timer.remaining - ticks }

@[simp] lemma Timer.label_after {α : Type} (timer : Timer α) (ticks : Nat) :
    (timer.after ticks).label = timer.label := rfl

lemma Timer.after_zero {α : Type} (timer : Timer α) : timer.after 0 = timer := by
  simp [after]

lemma Timer.after_one {α : Type} (timer : Timer α) : timer.after 1 = timer.next := by
  simp [after, next]

lemma Timer.after_after {α : Type} (timer : Timer α) (ticks more : Nat) :
    (timer.after ticks).after more = timer.after (ticks + more) := by
  simp only [after, Timer.mk.injEq, true_and]
  exact ⟨by ring, by omega⟩

/-- The interval at which an action repeats once it has run. -/
def PlannedRun.every? (run : PlannedRun) : Option Nat := run.interval.filter (· ≠ 0)

/-! ### Bindings that repeat -/

namespace Tree

/-- The interval at which an action repeats for a source: the source supports repetition, and the
action has an interval other than zero. -/
def repeatInterval? (tree : Tree) (source : String) (action : Nat) : Option Nat :=
  match (tree.find? source).bind tree.entity?, tree.entity? action with
  | some source, some e =>
    if source.behaviour.supportsRepetition then e.repeatDelay.filter (· ≠ 0) else none
  | _, _ => none

lemma Serves.repeatInterval?_eq {tree : Tree} {event : Event} {run : PlannedRun}
    (h : tree.Serves event run) : tree.repeatInterval? event.source run.action = run.every? := by
  obtain ⟨index, source, e, hfind, hsource, -, -, he, hinterval⟩ := h
  rw [repeatInterval?, PlannedRun.every?, hfind, Option.bind_some, hsource, he, hinterval]
  dsimp only
  split_ifs <;> rfl

/-- The timer of a repeat: an action that its source binds to the event and that repeats, under the
id that is put together from the source, the event and the id of the action. -/
def Labels (tree : Tree) (timer : Timer Refire) : Prop :=
  ∃ run, tree.Serves timer.label.event run ∧ tree.idAt? run.action = some run.actionId
    ∧ run.every?.isSome ∧ run.action = timer.label.action
    ∧ timer.id = Session.repeatId timer.label.event run.actionId

end Tree

namespace Session

variable {s : Session}

/-! ### What a move does to the timers -/

/-- The timer with which the next action of a delivery repeats. -/
def repeatTimer (s : Session) (delivery : Delivery) (interval : Nat) : Timer Refire :=
  s.ticker.started s.clock (repeatId delivery.event delivery.next.actionId)
    ⟨delivery.next.action, delivery.event⟩ (s.host.dispatch.clampRepeat interval)
    (s.host.dispatch.clampRepeat interval) s.host.dispatch.maxRepeats

/-- The timer with which a move starts a repeat. -/
def begun? (s : Session) (m : Move) : Option (Timer Refire) :=
  (s.resumed m).bind fun delivery => delivery.next.every?.map (s.repeatTimer delivery)

/-- The timers with which repeats start along a run. -/
def startings (s : Session) (moves : List Move) : List (Timer Refire) :=
  s.along (fun s m => (s.begun? m).toList) moves

/-- How often the timer of a generation ticks along a run. -/
def ticks (s : Session) (generation : Nat) (moves : List Move) : Nat :=
  (s.along (fun s m => (s.ticked m).toList) moves).countP (·.generation = generation)

/-- What ends a timer along a run: a teardown, a repeat that starts under its id, or its last
tick. -/
def Ends (s : Session) (timer : Timer Refire) (moves : List Move) : Prop :=
  .teardown ∈ moves ∨ (∃ other ∈ s.startings moves, other.id = timer.id)
    ∨ timer.remaining ≤ s.ticks timer.generation moves

lemma begun?_eq_some_iff {m : Move} {timer : Timer Refire} :
    s.begun? m = some timer ↔ ∃ delivery interval, s.resumed m = some delivery
      ∧ delivery.next.every? = some interval ∧ s.repeatTimer delivery interval = timer := by
  simp [begun?, Option.bind_eq_some_iff]

lemma begun?_of_resumed_none {m : Move} (h : s.resumed m = none) : s.begun? m = none := by
  rw [begun?, h, Option.bind_none]

/-- A repeat starts with a generation of its own. -/
lemma generation_of_begun {m : Move} {timer : Timer Refire} (h : s.begun? m = some timer) :
    timer.generation = s.ticker.generations := by
  obtain ⟨delivery, interval, -, -, rfl⟩ := begun?_eq_some_iff.mp h
  rfl

lemma scheduleRepeat_of_none {run : PlannedRun} (h : run.every? = none) (event : Event) :
    s.scheduleRepeat event run = s := by
  rw [scheduleRepeat]
  split
  · rfl
  · rfl
  · rename_i interval hne hinterval
    simp [PlannedRun.every?, hinterval] at h
    exact absurd h hne

lemma scheduleRepeat_of_some {run : PlannedRun} {interval : Nat} (h : run.every? = some interval)
    (event : Event) :
    (s.scheduleRepeat event run).ticker
      = s.ticker.start s.clock s.closed (repeatId event run.actionId) ⟨run.action, event⟩
          (s.host.dispatch.clampRepeat interval) (s.host.dispatch.clampRepeat interval)
          s.host.dispatch.maxRepeats := by
  obtain ⟨hinterval, hne⟩ := Option.filter_eq_some_iff.mp h
  rw [scheduleRepeat, hinterval]
  split
  · rename_i hnone
    cases hnone
  · rename_i hzero
    cases hzero
    simp at hne
  · rename_i other _ hother
    cases hother
    rfl

/-- What a move does to the ticker of an open session. -/
inductive Drives (s : Session) (m : Move) : Prop
  | keeps (move : m ≠ .teardown) (begun : s.begun? m = none) (ticked : s.ticked m = none)
      (ticker : (s.apply m).ticker = s.ticker)
  | clears (move : m = .teardown) (ticker : (s.apply m).ticker = s.ticker.clear)
  /-- A repeat starts. -/
  | starts (timer : Timer Refire) (begun : s.begun? m = some timer) (move : m ≠ .teardown)
      (ticked : s.ticked m = none)
      (timer_eq : timer = s.ticker.started s.clock timer.id timer.label timer.interval
        timer.interval timer.remaining)
      (interval : timer.interval ≠ 0)
      (ticker : (s.apply m).ticker = s.ticker.start s.clock false timer.id timer.label
        timer.interval timer.interval timer.remaining)
  /-- A timer ticks. -/
  | ticks (timer : Timer Refire) (ticked : s.ticked m = some timer) (move : m ≠ .teardown)
      (begun : s.begun? m = none) (ticker : (s.apply m).ticker = s.ticker.tick timer true)

/-- The repeat of an action that a delivery has run. -/
lemma drives_of_resumed {m : Move} {delivery : Delivery} (hresumed : s.resumed m = some delivery)
    (hafter : ((s.execute delivery.next.action delivery.event).scheduleRepeat delivery.event
      delivery.next).Works (s.apply m)) : s.Drives m := by
  obtain ⟨source, rfl, hopen, -⟩ := resumed_eq_some_iff.mp hresumed
  have hexecuted := emits_execution hopen delivery.next.action delivery.event
  have hticker := (s.works_execute delivery.next.action delivery.event).ticker
  cases hevery : delivery.next.every? with
  | none =>
      rw [scheduleRepeat_of_none hevery] at hafter
      refine .keeps (by simp) ?_ rfl (hafter.ticker.trans hticker)
      rw [begun?, hresumed, Option.bind_some, hevery, Option.map_none]
  | some interval =>
      have hbegun : s.begun? (.advance (.lane source)) = some (s.repeatTimer delivery interval) :=
        begun?_eq_some_iff.mpr ⟨delivery, interval, hresumed, hevery, rfl⟩
      have hne : s.host.dispatch.clampRepeat interval ≠ 0 := by
        have hinterval : interval ≠ 0 := by simpa using (Option.filter_eq_some_iff.mp hevery).2
        have hle : interval ≤ s.host.dispatch.clampRepeat interval := le_max_left _ _
        omega
      refine .starts _ hbegun (by simp) rfl rfl hne ?_
      rw [hafter.ticker, scheduleRepeat_of_some hevery, hticker, hexecuted.clock, hexecuted.closed,
        hexecuted.host, hopen]
      rfl

lemma drives_apply (hopen : s.closed = false) (m : Move) : s.Drives m := by
  cases s.does_apply m with
  | works move resumed ticked works =>
      exact .keeps move (begun?_of_resumed_none resumed) ticked works.ticker
  | teardown move =>
      subst move
      refine .clears rfl ?_
      show s.teardown.ticker = _
      rw [teardown, if_neg (by simp [hopen])]
  | repeats delivery resumed after => exact drives_of_resumed resumed after
  | asks load mem move answer visible ticker lanes =>
      subst move
      exact .keeps (by simp) rfl rfl ticker
  | ticks timer ticked t works after =>
      obtain ⟨generation, rfl, -⟩ := ticked_eq_some_iff.mp ticked
      refine .ticks timer ticked (by simp) rfl ?_
      rw [after, hopen]
      rfl

instance (s : Session) (timer : Timer Refire) (moves : List Move) :
    Decidable (s.Ends timer moves) :=
  inferInstanceAs (Decidable (_ ∨ _ ∨ _))

lemma ticks_of_none {m : Move} (h : s.ticked m = none) (generation : Nat) :
    s.ticks generation [m] = 0 := by
  simp [ticks, along_cons, h]

lemma ticks_of_some {m : Move} {timer : Timer Refire} (h : s.ticked m = some timer)
    (generation : Nat) :
    s.ticks generation [m] = if timer.generation = generation then 1 else 0 := by
  simp [ticks, along_cons, h, List.countP_singleton]

lemma ends_singleton {m : Move} {timer : Timer Refire} :
    s.Ends timer [m] ↔ m = .teardown ∨ (∃ other, s.begun? m = some other ∧ other.id = timer.id)
      ∨ timer.remaining ≤ s.ticks timer.generation [m] := by
  simp [Ends, startings, along_cons, eq_comm]

lemma ticks_cons (s : Session) (generation : Nat) (m : Move) (moves : List Move) :
    s.ticks generation (m :: moves)
      = s.ticks generation [m] + (s.apply m).ticks generation moves := by
  simp [ticks, along_cons]

/-- A timer ends along a run with the first move, or what that leaves of it ends along the
others. -/
lemma ends_cons {m : Move} {moves : List Move} {timer : Timer Refire} :
    s.Ends timer (m :: moves) ↔ s.Ends timer [m]
      ∨ (s.apply m).Ends (timer.after (s.ticks timer.generation [m])) moves := by
  have hle : timer.remaining ≤ s.ticks timer.generation (m :: moves)
      ↔ timer.remaining ≤ s.ticks timer.generation [m]
        ∨ timer.remaining - s.ticks timer.generation [m]
            ≤ (s.apply m).ticks timer.generation moves := by
    rw [ticks_cons]
    omega
  have hstartings : (∃ other ∈ s.startings (m :: moves), other.id = timer.id)
      ↔ (∃ other, s.begun? m = some other ∧ other.id = timer.id)
        ∨ ∃ other ∈ (s.apply m).startings moves, other.id = timer.id := by
    simp [startings, along_cons, or_and_right, exists_or]
  rw [ends_singleton, Ends, Ends, hle, hstartings, List.mem_cons, eq_comm (a := Move.teardown)]
  refine iff_of_eq ?_
  simp only [Timer.after]
  ac_rfl

/-! ### The invariant -/

/-- The ticker is sound, every timer has a tick left, and a closed session has no timers. -/
structure Timed (s : Session) : Prop where
  sound : s.ticker.Sound
  left : ∀ timer ∈ s.ticker.timers, timer.remaining ≠ 0
  quiet : s.Quiet

/-- **What a move does to the timers** of an open session: those that do not end go on, and one may
be started. -/
theorem Timed.mem_apply (h : s.Timed) (hopen : s.closed = false) {m : Move}
    {other : Timer Refire} :
    other ∈ (s.apply m).ticker.timers
      ↔ (∃ timer ∈ s.ticker.timers, ¬ s.Ends timer [m]
          ∧ timer.after (s.ticks timer.generation [m]) = other)
        ∨ s.begun? m = some other ∧ other.remaining ≠ 0 := by
  have hleft : ∀ timer ∈ s.ticker.timers, ¬ timer.remaining ≤ 0 := fun timer ht =>
    Nat.not_le.mpr (Nat.pos_of_ne_zero (h.left timer ht))
  simp only [ends_singleton, not_or]
  cases drives_apply hopen m with
  | keeps move begun ticked ticker =>
      simp only [ticker, ticks_of_none ticked, Timer.after_zero, begun, move]
      constructor
      · exact fun hother => .inl ⟨other, hother, by simp [hleft other hother], rfl⟩
      · rintro (⟨old, hold, -, rfl⟩ | ⟨hnone, -⟩)
        · exact hold
        · cases hnone
  | clears move ticker =>
      subst move
      have hbegun : s.begun? .teardown = none := rfl
      simp [ticker, Ticker.clear, hbegun]
  | starts timer begun move ticked timer_eq interval ticker =>
      simp only [ticker, h.sound.mem_start, ← timer_eq, ticks_of_none ticked, Timer.after_zero,
        begun, move]
      constructor
      · rintro (⟨hmem, hne⟩ | ⟨rfl, hlimit, -⟩)
        · exact .inl ⟨other, hmem, by simp [hne.symm, hleft other hmem], rfl⟩
        · exact .inr ⟨rfl, hlimit⟩
      · rintro (⟨old, hold, ⟨-, hfree, -⟩, rfl⟩ | ⟨heq, hlimit⟩)
        · exact .inl ⟨hold, fun heq => hfree ⟨timer, rfl, heq.symm⟩⟩
        · cases heq
          exact .inr ⟨rfl, hlimit, trivial, interval⟩
  | ticks timer ticked move begun ticker =>
      have hmem := mem_of_ticked ticked
      simp only [ticker, h.sound.mem_tick hmem, ticks_of_some ticked, begun, move]
      constructor
      · rintro (⟨hother, hne⟩ | ⟨rfl, -, hremaining⟩)
        · refine .inl ⟨other, hother, ?_⟩
          simp [hne.symm, hleft other hother, Timer.after_zero]
        · refine .inl ⟨timer, hmem, ?_⟩
          simp [hremaining, Timer.after_one]
      · rintro (⟨old, hold, ⟨-, -, hremaining⟩, rfl⟩ | ⟨heq, -⟩)
        · by_cases hgeneration : timer.generation = old.generation
          · obtain rfl := h.sound.eq_of_generation hmem hold hgeneration
            rw [if_pos rfl] at hremaining ⊢
            rw [Timer.after_one]
            exact .inr ⟨rfl, trivial, Nat.not_le.mp hremaining⟩
          · rw [if_neg hgeneration, Timer.after_zero]
            exact .inl ⟨hold, fun heq => hgeneration heq.symm⟩
        · cases heq

lemma Timed.apply (h : s.Timed) (m : Move) : (s.apply m).Timed := by
  cases hc : s.closed with
  | true =>
      have hticker := (rests_apply hc (h.quiet hc).2 m).ticker
      exact ⟨hticker ▸ h.sound, hticker ▸ h.left, h.quiet.apply m⟩
  | false =>
      refine ⟨?_, fun other hother => ?_, h.quiet.apply m⟩
      · cases drives_apply hc m with
        | keeps move begun ticked ticker =>
            rw [ticker]
            exact h.sound
        | clears move ticker =>
            rw [ticker]
            exact s.ticker.sound_clear
        | starts timer begun move ticked timer_eq interval ticker =>
            rw [ticker]
            exact h.sound.start
        | ticks timer ticked move begun ticker =>
            rw [ticker]
            exact h.sound.tick (mem_of_ticked ticked) true
      · obtain ⟨timer, -, hends, rfl⟩ | ⟨-, hleft⟩ := (h.mem_apply hc).mp hother
        · rw [ends_singleton, not_or, not_or] at hends
          simp only [Timer.after]
          omega
        · exact hleft

lemma timed_run (host : Host) (document : Document) (moves : List Move) :
    ((ofDocument host document).run moves).Timed := by
  induction moves using List.reverseRecOn with
  | nil =>
      exact ⟨Ticker.sound_empty, fun _ ht => absurd ht List.not_mem_nil, fun hc => by cases hc⟩
  | append_singleton moves m ih =>
      rw [run_append]
      exact ih.apply m

/-- Generations are not used again. -/
lemma Timed.generations_le (h : s.Timed) (m : Move) :
    s.ticker.generations ≤ (s.apply m).ticker.generations := by
  cases hc : s.closed with
  | true => rw [(rests_apply hc (h.quiet hc).2 m).ticker]
  | false =>
      cases drives_apply hc m with
      | keeps move begun ticked ticker => rw [ticker]
      | clears move ticker => rw [ticker, Ticker.clear]
      | starts timer begun move ticked timer_eq interval ticker =>
          rw [ticker]
          by_cases hlimit : timer.remaining = 0
          · rw [hlimit, Ticker.start_of_zero, Ticker.generations_stop]
          · rw [Ticker.start_of_pos hlimit]
            exact Nat.le_succ _
      | ticks timer ticked move begun ticker => rw [ticker, Ticker.generations_tick]

/-- A generation without a timer stays without one. -/
lemma Timed.gone (h : s.Timed) {generation : Nat} (hlt : generation < s.ticker.generations)
    (hgone : ∀ other ∈ s.ticker.timers, other.generation ≠ generation) (moves : List Move) :
    ∀ other ∈ (s.run moves).ticker.timers, other.generation ≠ generation := by
  induction moves generalizing s with
  | nil => exact hgone
  | cons m moves ih =>
      refine ih (h.apply m) (hlt.trans_le (h.generations_le m)) fun other hother => ?_
      cases hc : s.closed with
      | true =>
          rw [(rests_apply hc (h.quiet hc).2 m).ticker, (h.quiet hc).2] at hother
          cases hother
      | false =>
          obtain ⟨old, hold, -, rfl⟩ | ⟨hbegun, -⟩ := (h.mem_apply hc).mp hother
          · exact hgone old hold
          · rw [generation_of_begun hbegun]
            exact hlt.ne'

/-! ### Timers along a run -/

/-- **A timer goes on** along a run that does not end it. -/
lemma Timed.goesOn (h : s.Timed) (hopen : s.closed = false) {timer : Timer Refire}
    (ht : timer ∈ s.ticker.timers) {moves : List Move} (hends : ¬ s.Ends timer moves) :
    timer.after (s.ticks timer.generation moves) ∈ (s.run moves).ticker.timers := by
  induction moves generalizing s timer with
  | nil =>
      have hzero : s.ticks timer.generation [] = 0 := rfl
      rwa [hzero, Timer.after_zero]
  | cons m moves ih =>
      rw [ends_cons, not_or] at hends
      have hmove : m ≠ .teardown := fun heq => hends.1 (.inl (by simp [heq]))
      have hopen' : (s.apply m).closed = false := by simp [closed_apply, hopen, hmove]
      have hnext := (h.mem_apply hopen).mpr (.inl ⟨timer, ht, hends.1, rfl⟩)
      have hlast := ih (h.apply m) hopen' hnext hends.2
      rw [Timer.after_after] at hlast
      rw [ticks_cons]
      exact hlast

/-- **A timer is gone** after a run that ends it. -/
lemma Timed.ended (h : s.Timed) (hopen : s.closed = false) {timer : Timer Refire}
    (ht : timer ∈ s.ticker.timers) {moves : List Move} (hends : s.Ends timer moves) :
    ∀ other ∈ (s.run moves).ticker.timers, other.generation ≠ timer.generation := by
  induction moves generalizing s timer with
  | nil =>
      obtain hmem | ⟨other, hmem, -⟩ | hle := hends
      · simp at hmem
      · simp [startings] at hmem
      · exact absurd (Nat.le_zero.mp hle) (h.left timer ht)
  | cons m moves ih =>
      by_cases hfirst : s.Ends timer [m]
      · have hlt := h.sound.lt _ _ (h.sound.held timer ht)
        refine (h.apply m).gone (hlt.trans_le (h.generations_le m)) (fun other hother => ?_) moves
        obtain ⟨old, hold, hgoes, rfl⟩ | ⟨hbegun, -⟩ := (h.mem_apply hopen).mp hother
        · -- Another timer has another generation.
          intro hgeneration
          exact hgoes (h.sound.eq_of_generation hold ht hgeneration ▸ hfirst)
        · rw [generation_of_begun hbegun]
          exact hlt.ne'
      · have hmove : m ≠ .teardown := fun heq => hfirst (.inl (by simp [heq]))
        have hopen' : (s.apply m).closed = false := by simp [closed_apply, hopen, hmove]
        have hnext := (h.mem_apply hopen).mpr (.inl ⟨timer, ht, hfirst, rfl⟩)
        have hlast := ih (h.apply m) hopen' hnext ((ends_cons.mp hends).resolve_left hfirst)
        exact hlast

/-- A timer that goes on: when it is due it is ready, and its move puts the action on the lane of the
source once more. -/
structure Refires (s : Session) (timer : Timer Refire) : Prop where
  mem : timer ∈ s.ticker.timers
  ready : timer.wake ≤ s.clock → .timer timer.generation ∈ s.ready
  arrived : timer.wake ≤ s.clock →
    s.arrived timer.label.event.source (.advance (.timer timer.generation))
      = [.refire timer.label.action timer.label.event]

lemma Timed.refires (h : s.Timed) (hopen : s.closed = false) {timer : Timer Refire}
    (ht : timer ∈ s.ticker.timers) : s.Refires timer where
  mem := ht
  ready hdue := by
    rw [Session.ready]
    refine List.mem_append_right _ (List.mem_map.mpr ⟨timer, List.mem_filter.mpr ⟨ht, ?_⟩, rfl⟩)
    simpa using hdue
  arrived hdue := by
    rw [arrived_eq, posted, if_neg (by simp [hopen]), refired, h.sound.timer?_eq ht]
    simp [hdue, postsTo]

/-! ### Ids -/

/-- What is planned serves its event, and is known by its id. -/
lemma ofPlans_named : OfPlans fun tree event run =>
    tree.Serves event run ∧ tree.idAt? run.action = some run.actionId where
  plan hplan hrun := ⟨(plan_serves hplan hrun).1, (plan_serves hplan hrun).2.1⟩
  congr h hnamed := ⟨h.serves hnamed.1, by rw [h.idAt?_eq, hnamed.2]⟩

/-- Every repeat that starts along a run is that of a binding of the document. -/
lemma labels_of_begun {host : Host} {document : Document} {before : List Move} {m : Move}
    {timer : Timer Refire}
    (h : ((ofDocument host document).run before).begun? m = some timer) :
    (ofDocument host document).tree.Labels timer := by
  obtain ⟨delivery, interval, hresumed, hevery, rfl⟩ := begun?_eq_some_iff.mp h
  obtain ⟨source, -, -, hwork, -⟩ := resumed_eq_some_iff.mp hresumed
  obtain ⟨hserves, hid⟩ := ofPlans_named.run host document before source delivery hwork
    delivery.next List.mem_cons_self
  have hsame := ((ofDocument host document).sameStructure_run before).symm
  exact ⟨delivery.next, hsame.serves hserves, by rw [hsame.idAt?_eq, hid], by simp [hevery], rfl,
    rfl⟩

/-- Every timer of a session has what it starts with and no tick takes away. -/
lemma forall_timers_run {host : Host} {document : Document} {Q : Timer Refire → Prop}
    (hbegun : ∀ {before m timer}, ((ofDocument host document).run before).begun? m = some timer →
      Q timer)
    (hafter : ∀ timer ticks, Q timer → Q (timer.after ticks)) (moves : List Move) :
    ∀ timer ∈ ((ofDocument host document).run moves).ticker.timers, Q timer := by
  induction moves using List.reverseRecOn with
  | nil => exact fun _ ht => absurd ht List.not_mem_nil
  | append_singleton moves m ih =>
      have htimed := timed_run host document moves
      rw [run_concat]
      intro other hother
      cases hc : ((ofDocument host document).run moves).closed with
      | true =>
          rw [(rests_apply hc (htimed.quiet hc).2 m).ticker] at hother
          exact ih other hother
      | false =>
          obtain ⟨timer, ht, -, rfl⟩ | ⟨hnew, -⟩ := (htimed.mem_apply hc).mp hother
          · exact hafter timer _ (ih timer ht)
          · exact hbegun hnew

/-- Every timer of a session belongs to a binding of the document. -/
lemma labels_run (host : Host) (document : Document) (moves : List Move) :
    ∀ timer ∈ ((ofDocument host document).run moves).ticker.timers,
      (ofDocument host document).tree.Labels timer :=
  forall_timers_run labels_of_begun (fun _ _ h => h) moves

/-- An id of a repeat can be taken apart if there is no slash in the source and the event name. -/
lemma repeatId_inj {event other : Event} {actionId otherId : String}
    (hsource : '/' ∉ event.source.toList) (hother : '/' ∉ other.source.toList)
    (hname : '/' ∉ event.name.text.toList) (hname' : '/' ∉ other.name.text.toList)
    (h : repeatId event actionId = repeatId other otherId) :
    event.source = other.source ∧ event.name = other.name ∧ actionId = otherId := by
  have hchars : event.source.toList ++ '/' :: (event.name.text.toList ++ '/' :: actionId.toList)
      = other.source.toList ++ '/' :: (other.name.text.toList ++ '/' :: otherId.toList) := by
    have hlists := congrArg String.toList h
    simpa [repeatId] using hlists
  obtain ⟨hsources, hrest⟩ := Text.append_separator_inj hsource hother hchars
  obtain ⟨hnames, hactions⟩ := Text.append_separator_inj hname hname' hrest
  exact ⟨String.toList_inj.mp hsources, congrArg EventName.mk (String.toList_inj.mp hnames),
    String.toList_inj.mp hactions⟩

/-- There is no slash in a normal name. -/
lemma not_mem_of_isNormal {name : EventName} (h : name.IsNormal) : '/' ∉ name.text.toList := by
  obtain ⟨text, htext⟩ := h
  simp only [EventName.ofText?, Option.ite_none_right_eq_some, Option.some.injEq] at htext
  obtain ⟨⟨-, hchars⟩, rfl⟩ := htext
  intro hmem
  exact absurd (List.all_eq_true.mp hchars '/' hmem) (by decide)

/-- The binding of a repeat is known by its id, if no id of an entity is contested and there is no
slash in the sources. -/
lemma eq_of_labels {host : Host} {document : Document} {timer other : Timer Refire}
    (htimer : (ofDocument host document).tree.Labels timer)
    (hother : (ofDocument host document).tree.Labels other) (hid : other.id = timer.id)
    (hfree : ∀ p ∈ (document.build host.catalog host.evaluator host.dispatch).problems, ∀ id,
      p.fault ≠ .duplicateId id)
    (hslash : '/' ∉ timer.label.event.source.toList)
    (hslash' : '/' ∉ other.label.event.source.toList) :
    other.label.event.source = timer.label.event.source
      ∧ other.label.event.name = timer.label.event.name
      ∧ other.label.action = timer.label.action := by
  have hbuilt := document.build_built host.catalog host.evaluator host.dispatch
  have hnormal : ∀ {event : Event} {run : PlannedRun},
      (ofDocument host document).tree.Serves event run → '/' ∉ event.name.text.toList := by
    rintro event run ⟨index, source, e, -, hsource, -, hbound, -⟩
    refine not_mem_of_isNormal (document.build_normal host.catalog host.evaluator host.dispatch
      ((hbuilt.declares_iff event.name).mpr ⟨index, source, hsource, ?_⟩))
    rw [Tree.boundActions, hsource] at hbound
    obtain ⟨binding, hmem, -⟩ := List.mem_map.mp hbound
    exact ⟨binding, by simpa using hmem⟩
  obtain ⟨run, hserves, hidAt, -, haction, hname⟩ := htimer
  obtain ⟨run', hserves', hidAt', -, haction', hname'⟩ := hother
  rw [hname, hname'] at hid
  obtain ⟨hsources, hnames, hactionIds⟩ :=
    repeatId_inj hslash' hslash (hnormal hserves') (hnormal hserves) hid
  refine ⟨hsources, hnames, ?_⟩
  rw [← haction, ← haction']
  have hfind := document.build_addressable host.catalog host.evaluator host.dispatch hfree _ _ hidAt
  have hfind' :=
    document.build_addressable host.catalog host.evaluator host.dispatch hfree _ _ hidAt'
  rw [hactionIds, hfind, Option.some.injEq] at hfind'
  exact hfind'.symm

/-! ### The repeats of a session -/

lemma host_run (s : Session) (moves : List Move) : (s.run moves).host = s.host := by
  induction moves generalizing s with
  | nil => rfl
  | cons m moves ih => rw [run_cons, ih, (s.step_apply m).host]

/-- **A repeat goes on until its own end.**  Once a delivery has run an action that repeats for its
source, a timer ticks for the binding: whenever it is due it is ready, and puts the action on the lane
of the source once more.  It goes on so along every run, until the session is torn down, the timer has
ticked as often as it may, or a repeat starts under its id, and then it is gone.  If no id of an entity
is contested and no source has a slash in its id, only the same binding can start such a repeat. -/
theorem run_repeats (host : Host) (document : Document) (before : List Move) {m : Move}
    {delivery : Delivery} {interval : Nat}
    (hrun : ((ofDocument host document).run before).resumed m = some delivery)
    (hrepeats : (ofDocument host document).tree.repeatInterval? delivery.event.source
      delivery.next.action = some interval)
    (hlimit : host.dispatch.maxRepeats ≠ 0) :
    let s := (ofDocument host document).run before
    let t := s.apply m
    let timer := s.repeatTimer delivery interval
    (∀ after, ¬ t.Ends timer after →
        (t.run after).Refires (timer.after (t.ticks timer.generation after)))
      ∧ (∀ after, t.Ends timer after →
        ∀ other ∈ (t.run after).ticker.timers, other.generation ≠ timer.generation)
      ∧ ∀ after, ∀ other ∈ t.startings after, other.id = timer.id →
        (∀ p ∈ (document.build host.catalog host.evaluator host.dispatch).problems, ∀ id,
          p.fault ≠ .duplicateId id) →
        '/' ∉ delivery.event.source.toList → '/' ∉ other.label.event.source.toList →
        other.label.event.source = delivery.event.source
          ∧ other.label.event.name = delivery.event.name
          ∧ other.label.action = delivery.next.action := by
  intro s t timer
  obtain ⟨source, rfl, hopen, hwork, -⟩ := resumed_eq_some_iff.mp hrun
  have hevery : delivery.next.every? = some interval := by
    have hserves := ((ofDocument host document).sameStructure_run before).symm.serves
      (ofPlans_serves.run host document before source delivery hwork _ List.mem_cons_self)
    rw [← hserves.repeatInterval?_eq, hrepeats]
  have hbegun : s.begun? (.advance (.lane source)) = some timer :=
    begun?_eq_some_iff.mpr ⟨delivery, interval, hrun, hevery, rfl⟩
  have htimed : t.Timed := (timed_run host document before).apply _
  have hopen' : t.closed = false := by simp [t, closed_apply, hopen, s]
  have hmem : timer ∈ t.ticker.timers := by
    refine ((timed_run host document before).mem_apply hopen).mpr (.inr ⟨hbegun, ?_⟩)
    show s.host.dispatch.maxRepeats ≠ 0
    rwa [host_run]
  refine ⟨fun after hends => ?_, fun after hends => htimed.ended hopen' hmem hends,
    fun after other hother hid hfree hslash hslash' => ?_⟩
  · refine Timed.refires ?_ ?_ (htimed.goesOn hopen' hmem hends)
    · have happly := timed_run host document (before ++ .advance (.lane source) :: after)
      rwa [run_append] at happly
    · have hmoves : Move.teardown ∉ after := fun hmem => hends (.inl hmem)
      simp [closed_run, hopen', hmoves]
  · obtain ⟨front, m, back, rfl, hlast⟩ := exists_of_mem_along hother
    have hlate : ((ofDocument host document).run
        (before ++ .advance (.lane source) :: front)).begun? m = some other := by
      rw [run_append]
      exact Option.mem_toList.mp hlast
    exact eq_of_labels (labels_of_begun hbegun) (labels_of_begun hlate) hid hfree hslash hslash'

/-- Two providers with actions that repeat under the same id. -/
def echoes : Document where
  members := [("id", .string "screen"), ("dataProviders", .array [
    .object [("id", .string "feed"), ("type", .string "json"), ("actions", .array [.object [
      ("id", .string "x/success/y"), ("on", .string "success"),
      ("repeatDelay", .number (.int 10))]])],
    .object [("id", .string "feed/success/x"), ("type", .string "json"), ("actions", .array [.object [
      ("id", .string "y"), ("on", .string "success"), ("repeatDelay", .number (.int 10))]])]])]

/-- The repeat of one provider goes on until that of the other one starts. -/
theorem run_repeats_echoes :
    let opened := ofDocument (Host.answering 0 (.ok .null)) echoes
    let s := opened.run [.raise "feed" "success" none, .advance (.lane "feed")]
    let t := s.apply (.advance (.lane "feed"))
    let delivery : Delivery :=
      ⟨⟨⟨"success"⟩, "feed", none⟩, ⟨2, "x/success/y", none, some 10000⟩, [], 0⟩
    let timer := s.repeatTimer delivery 10000
    let after : List Move := [.raise "feed/success/x" "success" none,
      .advance (.lane "feed/success/x"), .advance (.lane "feed/success/x")]
    s.resumed (.advance (.lane "feed")) = some delivery
      ∧ opened.tree.repeatInterval? "feed" 2 = some 10000
      ∧ (Host.answering 0 (.ok .null)).dispatch.maxRepeats ≠ 0
      ∧ (t.run [.elapse 10]).Refires timer
      ∧ ((t.run after).ticker.timers.map fun other => other.label.event.source)
        = ["feed/success/x"]
      ∧ ∀ other ∈ (t.run after).ticker.timers, other.generation ≠ timer.generation := by
  obtain ⟨hrun, hrepeats, hlimit⟩ :
      ((ofDocument (Host.answering 0 (.ok .null)) echoes).run
          [.raise "feed" "success" none, .advance (.lane "feed")]).resumed (.advance (.lane "feed"))
        = some ⟨⟨⟨"success"⟩, "feed", none⟩, ⟨2, "x/success/y", none, some 10000⟩, [], 0⟩
      ∧ (ofDocument (Host.answering 0 (.ok .null)) echoes).tree.repeatInterval? "feed" 2
        = some 10000
      ∧ (Host.answering 0 (.ok .null)).dispatch.maxRepeats ≠ 0 := by decide +kernel
  obtain ⟨hgoes, hgone, -⟩ := run_repeats _ echoes _ hrun hrepeats hlimit
  have hfirst := hgoes [.elapse 10] (by decide +kernel)
  rw [ticks_of_none (by rfl), Timer.after_zero] at hfirst
  exact ⟨hrun, hrepeats, hlimit, hfirst, by decide +kernel, hgone _ (by decide +kernel)⟩

end Session

end Componentry

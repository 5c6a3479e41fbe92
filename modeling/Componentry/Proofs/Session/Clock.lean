import Mathlib.Tactic
import Componentry.Proofs.Session.Settle
/-!
# The clock

No move but an elapse changes the clock (`Session.clock_apply`), and the moves of a run may let time
pass as they like.  A run that is punctual does not (`Session.Punctual`): time passes in it only when
no task is ready, and not beyond the next moment at which one is.  The runs of a `Schedule` are of
this kind (`Schedule.settleWithin_punctual`, `Schedule.runUntil_punctual`).

In a punctual run nothing comes late.  A delivery that waits for a moment is there when it comes
(`Session.InTime.le_wake`), and so is a timer (`Session.InTime.le_wake_timer`); while a lane has a
message that it can take no time passes at all (`Session.Punctual.clock_run`).
-/

namespace Componentry

namespace Session

variable {s : Session} {source : String}

/-! ### What the clock depends on -/

@[simp] lemma raiseLifecycle_clock (s : Session) (index : Nat)
    (events : List (LifecycleEvent × Option Json)) :
    (s.raiseLifecycle index events).clock = s.clock :=
  s.raiseLifecycle_eq clock (fun s source message => (s.emits_enqueue source message).clock) index
    events

lemma clock_accepted_dispatch (s : Session) (event : Event) :
    (s.accepted (s.dispatch event)).clock = s.clock := by
  rw [dispatch]
  split_ifs
  · rfl
  · rfl
  · rfl
  · exact (s.emits_enqueue event.source (.deliver event)).clock

lemma clock_advanceLane (s : Session) (source : String) :
    (s.apply (.advance (.lane source))).clock = s.clock := by
  cases hc : s.closed with
  | true =>
      rw [apply_lane_of_closed hc, dropped]
      split_ifs <;> rfl
  | false =>
      cases hturn : s.turn source with
      | none => rw [apply_lane_of_rest hc hturn]
      | some turn =>
          obtain ⟨t, hemits, happly⟩ := apply_lane_of_turn hc hturn
          rw [happly, endTurn_clock, hemits.clock, opened_clock]

lemma clock_completeLoad (s : Session) (provider : Nat) (result : LoadResult) :
    (s.completeLoad provider result).clock = s.clock := by
  rw [completeLoad]
  split
  · rfl
  · exact raiseLifecycle_clock _ _ _

lemma clock_beginLoad (s : Session) (load : Load) : (s.beginLoad load).clock = s.clock := by
  rw [beginLoad]
  split
  · rfl
  · split
    · rfl
    · split_ifs
      · rfl
      · rfl
      · rw [ask]
        split <;> rfl

lemma clock_advanceLoad (s : Session) (ticket : Nat) :
    (s.advanceLoad ticket).clock = s.clock := by
  rw [advanceLoad]
  split
  · rfl
  · rename_i load _
    split
    · exact s.clock_beginLoad load
    · rename_i arrival result _
      split_ifs
      · show (if s.closed then s else s.completeLoad load.provider result).clock = s.clock
        split_ifs
        · rfl
        · exact s.clock_completeLoad load.provider result
      · rfl

lemma clock_advanceTimer (s : Session) (generation : Nat) :
    (s.advanceTimer generation).clock = s.clock := by
  rw [advanceTimer]
  split
  · rfl
  · split_ifs
    · exact (s.emits_enqueue _ _).clock
    · rfl

/-- **Only an elapse changes the clock.** -/
theorem clock_apply {m : Move} (hm : ∀ moment, m ≠ .elapse moment) :
    (s.apply m).clock = s.clock := by
  cases m with
  | dispatch event => exact s.clock_accepted_dispatch event
  | raise origin name payload =>
      show (s.accepted (s.raise origin name payload)).clock = s.clock
      rw [raise]
      split
      · rfl
      · exact s.clock_accepted_dispatch _
  | load id =>
      show (s.accepted (s.load id)).clock = s.clock
      rw [load]
      split_ifs
      · rfl
      · split
        · rfl
        · split_ifs <;> rfl
  | begin id =>
      show (s.accepted (s.begin id)).clock = s.clock
      rw [begin]
      split
      · rfl
      · split <;> rfl
  | complete id outcome payload =>
      show (s.accepted (s.complete id outcome payload)).clock = s.clock
      rw [complete]
      split
      · rfl
      · split
        · rfl
        · exact raiseLifecycle_clock _ _ _
  | teardown =>
      show s.teardown.clock = s.clock
      rw [teardown]
      split_ifs <;> rfl
  | advance task =>
      cases task with
      | lane mover => exact s.clock_advanceLane mover
      | load ticket => exact s.clock_advanceLoad ticket
      | timer generation => exact s.clock_advanceTimer generation
  | elapse moment => exact absurd rfl (hm moment)

/-- Time does not go back. -/
lemma le_clock_apply (s : Session) (m : Move) : s.clock ≤ (s.apply m).clock := by
  by_cases hm : ∃ moment, m = .elapse moment
  · obtain ⟨moment, rfl⟩ := hm
    exact Nat.le_max_left _ _
  · exact (clock_apply fun moment heq => hm ⟨moment, heq⟩).ge

/-! ### Punctual runs -/

/-- Time passes with a move only when no task is ready, and not beyond the next moment at which one
is. -/
def InTime (s : Session) : Move → Prop
  | .elapse moment => s.ready = [] ∧ ∀ wake ∈ s.nextWake?, moment ≤ wake
  | _ => True

/-- Every move of a run is in time. -/
def Punctual (s : Session) : List Move → Prop
  | [] => True
  | m :: moves => s.InTime m ∧ (s.apply m).Punctual moves

instance (s : Session) (m : Move) : Decidable (s.InTime m) := by
  cases m with
  | elapse moment => exact inferInstanceAs (Decidable (s.ready = [] ∧ ∀ wake ∈ s.nextWake?, _))
  | _ => exact .isTrue trivial

instance decidablePunctual : (s : Session) → (moves : List Move) → Decidable (s.Punctual moves)
  | _, [] => .isTrue trivial
  | s, m :: moves =>
    have := decidablePunctual (s.apply m) moves
    inferInstanceAs (Decidable (s.InTime m ∧ (s.apply m).Punctual moves))

lemma punctual_append {moves more : List Move} :
    s.Punctual (moves ++ more) ↔ s.Punctual moves ∧ (s.run moves).Punctual more := by
  induction moves generalizing s with
  | nil => simp [Punctual]
  | cons m moves ih => simp [Punctual, ih, and_assoc]

/-- The next moment is not later than any one that a task waits for. -/
lemma exists_nextWake?_le {moment : Nat} (hclock : s.clock < moment)
    (h : moment ∈ (s.lanes.filterMap fun entry => entry.2.wake?)
      ++ (s.loads.filterMap fun load => load.answer.map Prod.fst)
      ++ s.ticker.timers.map Timer.wake) : ∃ wake, s.nextWake? = some wake ∧ wake ≤ moment := by
  obtain ⟨wake, hwake⟩ := Option.isSome_iff_exists.mp (nextWake?_isSome hclock h)
  refine ⟨wake, hwake, (List.min?_eq_some_iff.mp hwake).2 moment ?_⟩
  exact List.mem_filter.mpr ⟨h, decide_eq_true hclock⟩

/-- **Time does not pass a delivery that waits.** -/
lemma InTime.le_wake {moment : Nat} (h : s.InTime (.elapse moment)) {delivery : Delivery}
    (hw : (s.lane source).work = some delivery) : (s.elapse moment).clock ≤ delivery.wake := by
  obtain ⟨hready, hmoment⟩ := h
  have hweight : (s.lane source).weight ≠ 0 := by simp [Lane.weight, hw]
  have hclock : s.clock < delivery.wake := by
    by_contra hle
    have hmem := ready_of_lane hweight (by simpa [Lane.isReady, hw] using .inr (Nat.not_lt.mp hle))
    rw [hready] at hmem
    cases hmem
  obtain ⟨wake, hwake, hle⟩ := exists_nextWake?_le hclock (List.mem_append_left _
    (List.mem_append_left _ (List.mem_filterMap.mpr ⟨_, mem_lanes hweight, by
      rw [Lane.wake?, hw, Option.map_some]⟩)))
  exact max_le hclock.le ((hmoment wake hwake).trans hle)

/-- **Time does not pass a timer.** -/
lemma InTime.le_wake_timer {moment : Nat} (h : s.InTime (.elapse moment)) {timer : Timer Refire}
    (ht : timer ∈ s.ticker.timers) : (s.elapse moment).clock ≤ timer.wake := by
  obtain ⟨hready, hmoment⟩ := h
  have hclock : s.clock < timer.wake := by
    by_contra hle
    have hmem : Task.timer timer.generation ∈ s.ready := by
      rw [ready]
      exact List.mem_append_right _ (List.mem_map.mpr ⟨timer, List.mem_filter.mpr ⟨ht,
        decide_eq_true (Nat.not_lt.mp hle)⟩, rfl⟩)
    rw [hready] at hmem
    cases hmem
  obtain ⟨wake, hwake, hle⟩ := exists_nextWake?_le hclock
    (List.mem_append_right _ (List.mem_map_of_mem ht))
  exact max_le hclock.le ((hmoment wake hwake).trans hle)

/-- A delivery that waits on a lane stays so until the lane moves, and does not come late. -/
lemma InTime.le_wake_apply {m : Move} (h : s.InTime m) {delivery : Delivery}
    (hw : (s.lane source).work = some delivery) (hle : s.clock ≤ delivery.wake) :
    (s.apply m).clock ≤ delivery.wake := by
  by_cases hm : ∃ moment, m = .elapse moment
  · obtain ⟨moment, rfl⟩ := hm
    exact h.le_wake hw
  · rwa [clock_apply fun moment heq => hm ⟨moment, heq⟩]

/-- **No time passes while a lane has a message that it can take.** -/
theorem Punctual.clock_run {moves : List Move} (h : s.Punctual moves)
    (hw : (s.lane source).work = none) (hq : (s.lane source).queue ≠ [])
    (hm : .advance (.lane source) ∉ moves) : (s.run moves).clock = s.clock := by
  induction moves generalizing s with
  | nil => rfl
  | cons m moves ih =>
      obtain ⟨hfirst, hrest⟩ := h
      rw [List.mem_cons, not_or] at hm
      have hclock : (s.apply m).clock = s.clock := by
        refine clock_apply fun moment heq => ?_
        subst heq
        have hready : .lane source ∈ s.ready :=
          ready_of_lane (by simpa [Lane.weight, hw] using hq) (by simpa [Lane.isReady, hw] using hq)
        rw [hfirst.1] at hready
        cases hready
      have hstep := s.step_apply m
      have hqueue := hstep.queue source
      rw [s.taken_of_ne (Ne.symm hm.1), List.nil_append] at hqueue
      have hwork := (hstep.work source (Ne.symm hm.1)).trans hw
      rw [run_cons, ih hrest hwork (by simp [← hqueue, hq]) hm.2, hclock]

end Session

/-! ### Schedules -/

namespace Schedule

variable {schedule : Schedule}

/-- A schedule goes over to another one by a punctual run of its session. -/
def Keeps (schedule next : Schedule) : Prop :=
  ∃ moves, schedule.session.Punctual moves ∧ next.session = schedule.session.run moves

lemma Keeps.refl (schedule : Schedule) : schedule.Keeps schedule := ⟨[], trivial, rfl⟩

lemma Keeps.turn {next : Schedule} {task : Task} {rest : List Task}
    (h : (schedule.turn task rest).Keeps next) : schedule.Keeps next := by
  obtain ⟨moves, hmoves, hnext⟩ := h
  exact ⟨.advance task :: moves, ⟨trivial, hmoves⟩, hnext⟩

lemma Keeps.elapse {next : Schedule} {moment : Nat}
    (hintime : schedule.session.InTime (.elapse moment)) (h : (schedule.elapse moment).Keeps next) :
    schedule.Keeps next := by
  obtain ⟨moves, hmoves, hnext⟩ := h
  exact ⟨.elapse moment :: moves, ⟨hintime, hmoves⟩, hnext⟩

/-- **Settling is punctual.** -/
theorem settleWithin_punctual (h : schedule.Current) (fuel : Nat) :
    schedule.Keeps (settleWithin fuel schedule) := by
  induction fuel generalizing schedule with
  | zero => exact .refl schedule
  | succ fuel ih =>
      rw [settleWithin]
      split_ifs
      · exact .refl schedule
      · split
        · exact (ih (refresh_current _)).turn
        · rename_i hagenda
          split
          · rename_i moment hwake
            refine (ih (refresh_current _)).elapse ⟨h.ready_eq_nil hagenda, fun wake hmem => ?_⟩
            rw [Option.mem_def, hwake, Option.some.injEq] at hmem
            exact hmem.le
          · exact .refl schedule

/-- **Waiting is punctual.** -/
theorem runUntil_punctual (h : schedule.Current) (finish fuel : Nat) :
    schedule.Keeps (runUntil finish fuel schedule) := by
  induction fuel generalizing schedule with
  | zero => exact .refl schedule
  | succ fuel ih =>
      rw [runUntil]
      split
      · exact (ih (refresh_current _)).turn
      · rename_i hagenda
        have hready := h.ready_eq_nil hagenda
        split
        · rename_i moment hwake
          have hmoment : ∀ wake ∈ schedule.session.nextWake?, wake = moment := by simp [hwake]
          split_ifs with hlt
          · exact (ih (refresh_current _)).elapse
              ⟨hready, fun wake hmem => (hmoment wake hmem).ge⟩
          · exact (Keeps.refl _).elapse
              ⟨hready, fun wake hmem => (Nat.not_lt.mp hlt).trans (hmoment wake hmem).ge⟩
        · rename_i hnone
          exact (Keeps.refl _).elapse ⟨hready, by simp [hnone]⟩

end Schedule

end Componentry

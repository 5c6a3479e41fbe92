import Mathlib.Tactic
import Componentry.Proofs.Session.Run
/-!
# Settling

A session that has work left can go on: one of its tasks is ready, or there is a moment to wait for
(`exists_nextWake`).  The agenda of a schedule has every ready task on it (`Schedule.Current`), so
that a schedule that settles comes to a halt only when nothing is left, the session is closed or the
moves that it is given are used up (`settleWithin_settling`).
-/

namespace Componentry

/-- Whether a move is one of the session itself, rather than of the host. -/
def Move.isInternal : Move → Bool
  | .advance _ | .elapse _ => true
  | _ => false

/-- A lane without messages on which nothing is under way. -/
def Lane.IsIdle (lane : Lane) : Prop := lane.queue = [] ∧ lane.work = none

lemma Lane.isIdle_iff {lane : Lane} : lane.IsIdle ↔ lane.weight = 0 := by
  rw [Lane.IsIdle, Lane.weight]
  cases lane.work <;> simp

namespace Session

variable {s : Session}

/-- Nothing is left to do when the backlog is empty. -/
lemma idle_of_backlog (h : s.backlog = 0) : s.loads = [] ∧ ∀ source, (s.lane source).IsIdle := by
  refine ⟨?_, fun source => ?_⟩
  · rw [backlog] at h
    exact List.length_eq_zero_iff.mp (by omega)
  · have hle := s.weight_le_backlog source
    exact Lane.isIdle_iff.mpr (by omega)

/-- A backlog is a lane with work or a load. -/
lemma exists_of_backlog (h : s.backlog ≠ 0) :
    (∃ entry ∈ s.lanes, entry.2.weight ≠ 0) ∨ s.loads ≠ [] := by
  by_contra hnot
  push Not at hnot
  obtain ⟨hlanes, hloads⟩ := hnot
  apply h
  have hsum : (s.lanes.map fun entry => entry.2.weight).sum = 0 := by
    rw [List.sum_eq_zero_iff]
    intro weight hw
    obtain ⟨entry, hentry, rfl⟩ := List.mem_map.mp hw
    exact hlanes entry hentry
  rw [backlog, hsum, hloads]
  rfl

/-- A lane with something on it is in the list of lanes. -/
lemma mem_lanes {source : String} (h : (s.lane source).weight ≠ 0) :
    (source, s.lane source) ∈ s.lanes := by
  cases hlookup : s.lanes.lookup source with
  | none => simp [lane, hlookup, Lane.weight] at h
  | some found =>
      rw [lane, hlookup, Option.getD_some]
      exact Keyed.mem_of_lookup hlookup

/-- A lane that can make a move is a ready task. -/
lemma ready_of_lane {source : String} (h : (s.lane source).weight ≠ 0)
    (hready : (s.lane source).isReady s.clock s.closed = true) : .lane source ∈ s.ready := by
  rw [ready]
  exact List.mem_append_left _ (List.mem_append_left _
    (List.mem_map.mpr ⟨_, List.mem_filter.mpr ⟨mem_lanes h, hready⟩, rfl⟩))

/-- A lane with work that cannot make a move waits for a moment to come. -/
lemma exists_wake_of_lane {lane : Lane} (hw : lane.weight ≠ 0)
    (hready : lane.isReady s.clock s.closed = false) :
    ∃ moment, lane.wake? = some moment ∧ s.clock < moment := by
  rw [Lane.isReady] at hready
  cases hwork : lane.work with
  | none =>
      rw [hwork] at hready
      simp only [Lane.weight, hwork, Option.toList_none, List.length_nil, Nat.add_zero, ne_eq,
        List.length_eq_zero_iff] at hw
      simp [hw] at hready
  | some delivery =>
      rw [hwork] at hready
      simp only [Bool.or_eq_false_iff, decide_eq_false_iff_not, Nat.not_le] at hready
      exact ⟨delivery.wake, by simp [Lane.wake?, hwork], hready.2⟩

/-- A load that cannot make a move waits for its answer. -/
lemma exists_wake_of_load {load : Load} (hready : load.isReady s.clock = false) :
    ∃ moment, load.answer.map Prod.fst = some moment ∧ s.clock < moment := by
  rw [Load.isReady] at hready
  cases ha : load.answer with
  | none => simp [ha] at hready
  | some answer =>
      rw [ha] at hready
      simp only [decide_eq_false_iff_not, Nat.not_le] at hready
      exact ⟨answer.1, rfl, hready⟩

/-- The next moment is there as soon as some task waits for one. -/
lemma nextWake?_isSome {moment : Nat} (hclock : s.clock < moment)
    (h : moment ∈ (s.lanes.filterMap fun entry => entry.2.wake?)
      ++ (s.loads.filterMap fun load => load.answer.map Prod.fst)
      ++ s.ticker.timers.map Timer.wake) : s.nextWake?.isSome := by
  have hmem := (List.mem_filter (p := fun moment => s.clock < moment)).mpr
    ⟨h, decide_eq_true hclock⟩
  rw [nextWake?, List.isSome_min?_iff]
  exact List.ne_nil_of_mem hmem

/-- **A session that has work left can go on**: a task is ready, or there is a moment to wait
for. -/
theorem exists_nextWake (h : s.backlog ≠ 0) (hready : s.ready = []) : s.nextWake?.isSome := by
  simp only [ready, List.append_eq_nil_iff, List.map_eq_nil_iff, List.filter_eq_nil_iff] at hready
  obtain ⟨⟨hlanes, hloads⟩, _⟩ := hready
  obtain ⟨entry, hentry, hw⟩ | hne := exists_of_backlog h
  · obtain ⟨moment, hwake, hclock⟩ :=
      exists_wake_of_lane hw (by simpa using hlanes entry hentry)
    refine nextWake?_isSome hclock ?_
    exact List.mem_append_left _
      (List.mem_append_left _ (List.mem_filterMap.mpr ⟨entry, hentry, hwake⟩))
  · obtain ⟨load, hload⟩ := List.exists_mem_of_ne_nil _ hne
    obtain ⟨moment, hanswer, hclock⟩ := exists_wake_of_load (by simpa using hloads load hload)
    refine nextWake?_isSome hclock ?_
    exact List.mem_append_left _
      (List.mem_append_right _ (List.mem_filterMap.mpr ⟨load, hload, hanswer⟩))

/-! ### Moves that settle -/

/-- The moves of its own by which a session comes to another, at most `fuel` of them: fewer only
when nothing is left to do or the session is closed. -/
structure Settling (s : Session) (fuel : Nat) (t : Session) (moves : List Move) : Prop where
  internal : ∀ m ∈ moves, m.isInternal = true
  reached : t = s.run moves
  within : moves.length ≤ fuel
  halted : t.pending = 0 ∨ t.closed = true ∨ moves.length = fuel

/-- A session at which nothing is left to do has settled. -/
lemma Settling.stop (h : s.pending = 0 ∨ s.closed = true) (fuel : Nat) : s.Settling fuel s [] where
  internal := by simp
  reached := rfl
  within := Nat.zero_le fuel
  halted := h.imp_right .inl

/-- One more move of its own before those that settle. -/
lemma Settling.cons {t : Session} {fuel : Nat} {m : Move} {moves : List Move}
    (hm : m.isInternal = true) (h : (s.apply m).Settling fuel t moves) :
    s.Settling (fuel + 1) t (m :: moves) where
  internal := by
    intro other hother
    obtain rfl | hother := List.mem_cons.mp hother
    · exact hm
    · exact h.internal other hother
  reached := h.reached
  within := by simpa using h.within
  halted := by simpa using h.halted

end Session

namespace Schedule

/-- The agenda of a schedule has every ready task on it. -/
def Current (schedule : Schedule) : Prop :=
  ∀ task ∈ schedule.session.ready, task ∈ schedule.agenda

lemma refresh_current (schedule : Schedule) : schedule.refresh.Current := by
  intro task htask
  have hready : task ∈ schedule.session.ready := htask
  rw [refresh]
  by_cases hkept : task ∈ schedule.agenda.filter (· ∈ schedule.session.ready)
  · exact List.mem_append_left _ hkept
  · exact List.mem_append_right _ (List.mem_filter.mpr ⟨hready, decide_eq_true hkept⟩)

/-- An empty agenda has no ready task behind it. -/
lemma Current.ready_eq_nil {schedule : Schedule} (h : schedule.Current)
    (hagenda : schedule.agenda = []) : schedule.session.ready = [] := by
  rw [List.eq_nil_iff_forall_not_mem]
  intro task htask
  have hmem := h task htask
  rw [hagenda] at hmem
  simp at hmem

/-- **A schedule with work left is not stuck**: a task is on its agenda, or there is a moment to
wait for. -/
lemma Current.nextWake?_ne_none {schedule : Schedule} (h : schedule.Current)
    (hagenda : schedule.agenda = []) (hbacklog : schedule.session.backlog ≠ 0) :
    schedule.session.nextWake? ≠ none := by
  have hsome := Session.exists_nextWake hbacklog (h.ready_eq_nil hagenda)
  exact Option.isSome_iff_ne_none.mp hsome

lemma turn_session (schedule : Schedule) (task : Task) (rest : List Task) :
    (schedule.turn task rest).session = schedule.session.apply (.advance task) := rfl

lemma elapse_session (schedule : Schedule) (moment : Nat) :
    (schedule.elapse moment).session = schedule.session.apply (.elapse moment) := rfl

/-- **Settling is a run of the session's own moves**, which stops early only when nothing is left to
do or the session is closed. -/
theorem settleWithin_settling {schedule : Schedule} (hcurrent : schedule.Current)
    (hn : schedule.session.Numbered) (hp : schedule.session.pending = schedule.session.backlog)
    (fuel : Nat) :
    ∃ moves, schedule.session.Settling fuel (settleWithin fuel schedule).session moves := by
  induction fuel generalizing schedule with
  | zero => exact ⟨[], by simp, rfl, le_rfl, .inr (.inr rfl)⟩
  | succ fuel ih =>
      -- One move that keeps the invariants, and the rest by the induction hypothesis.
      have hmove : ∀ (m : Move) (next : Schedule), m.isInternal = true →
          next.session = schedule.session.apply m → next.Current →
          ∃ moves, schedule.session.Settling (fuel + 1) (settleWithin fuel next).session moves := by
        intro m next hm hnext hc
        have hstep := schedule.session.step_apply m
        obtain ⟨moves, hsettle⟩ := ih hc (hnext ▸ hstep.numbered hn) (hnext ▸ hstep.account hn hp)
        rw [hnext] at hsettle
        exact ⟨m :: moves, hsettle.cons hm⟩
      rw [settleWithin]
      split_ifs with hstop
      · exact ⟨[], .stop (by simpa using hstop) _⟩
      · split
        · rename_i task rest _
          exact hmove (.advance task) _ rfl (schedule.turn_session task rest) (refresh_current _)
        · rename_i hagenda
          split
          · rename_i moment _
            exact hmove (.elapse moment) _ rfl (schedule.elapse_session moment) (refresh_current _)
          · rename_i hnone
            have hbacklog : schedule.session.backlog ≠ 0 := by
              rw [← hp]
              simp only [Bool.or_eq_true, decide_eq_true_eq, not_or] at hstop
              exact hstop.1
            exact absurd hnone (hcurrent.nextWake?_ne_none hagenda hbacklog)

end Schedule

end Componentry

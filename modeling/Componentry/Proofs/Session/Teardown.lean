import Mathlib.Tactic
import Componentry.Proofs.Session.Settle
/-!
# After the teardown

A closed session takes no message any more, so that a lane only loses its work: each move of the
lane drops the delivery under way, or else the first message, and counts it off (`Lane.shed`).
`lane_run_closed` says what is left of a lane after any run, and `pending_shed` that each piece is
counted off once.  Until a lane is idle it is ready (`ready_of_closed`), so that nothing is left
behind.
-/

namespace Componentry

namespace Session

variable {s : Session}

lemma posted_of_closed (hc : s.closed = true) (m : Move) : s.posted m = [] := by
  unfold posted
  rw [if_pos hc]

lemma lane_apply_closed (hc : s.closed = true) (m : Move) (source : String) :
    (s.apply m).lane source
      = if m = .advance (.lane source) then (s.lane source).shed else s.lane source := by
  split_ifs with hm
  · subst hm
    rw [apply_lane_of_closed hc, lane_dropped, if_pos rfl]
  · have hstep := s.step_apply m
    have hqueue := hstep.queue source
    rw [posted_of_closed hc, s.taken_of_ne hm, postsTo_nil, List.append_nil, List.nil_append]
      at hqueue
    have hwork := hstep.work source hm
    cases ha : (s.apply m).lane source
    cases hb : s.lane source
    rw [ha, hb] at hqueue hwork
    simp_all

/-- **What is left of a lane**: every move of its own has taken one piece of its work away. -/
theorem lane_run_closed (hc : s.closed = true) (moves : List Move) (source : String) :
    (s.run moves).lane source
      = Lane.shed^[moves.count (.advance (.lane source))] (s.lane source) := by
  induction moves generalizing s with
  | nil => rfl
  | cons m moves ih =>
      rw [run_cons, ih (closed_apply_of_closed hc m), lane_apply_closed hc, List.count_cons]
      by_cases hm : m = .advance (.lane source)
      · simp [hm]
      · simp [hm]

lemma weight_iterate_shed (lane : Lane) (n : Nat) :
    (Lane.shed^[n] lane).weight = lane.weight - n := by
  induction n generalizing lane with
  | zero => rfl
  | succ n ih =>
      rw [Function.iterate_succ_apply, ih, Lane.weight_shed]
      omega

/-- The messages that a lane has left are the last ones. -/
lemma queue_iterate_shed (lane : Lane) (n : Nat) :
    (Lane.shed^[n] lane).queue = lane.queue.drop (n - lane.work.toList.length) := by
  induction n generalizing lane with
  | zero => simp
  | succ n ih =>
      rw [Function.iterate_succ_apply, ih]
      cases hw : lane.work with
      | some delivery => simp [Lane.shed, hw]
      | none => simp [Lane.shed, hw, ← List.drop_one, Nat.add_comm]

/-- Each piece of work that a lane of a closed session drops is counted off once. -/
lemma pending_shed (hc : s.closed = true) (hp : s.pending = s.backlog) {source : String}
    (hw : (s.lane source).weight ≠ 0) :
    (s.apply (.advance (.lane source))).pending + 1 = s.pending := by
  have hle := s.weight_le_backlog source
  have hpending : (s.dropped source).pending = s.pending - 1 := by
    rw [dropped, if_neg hw]
    rfl
  rw [apply_lane_of_closed hc]
  omega

/-- A lane of a closed session is ready as long as it has work left. -/
lemma ready_of_closed (hc : s.closed = true) {source : String}
    (hw : (s.lane source).weight ≠ 0) : .lane source ∈ s.ready := by
  refine ready_of_lane hw ?_
  rw [Lane.isReady]
  cases hwork : (s.lane source).work with
  | some delivery => simp [hc]
  | none => simpa [Lane.weight, hwork] using hw

/-- Nothing is written about a lane of a closed session. -/
lemma arrivals_of_closed (hc : s.closed = true) (source : String) (moves : List Move) :
    s.arrivals source moves = [] := by
  induction moves generalizing s with
  | nil => rfl
  | cons m moves ih =>
      rw [arrivals, ih (closed_apply_of_closed hc m), arrived_eq, posted_of_closed hc]
      rfl

end Session

end Componentry

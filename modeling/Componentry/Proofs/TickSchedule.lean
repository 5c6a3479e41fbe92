import Mathlib.Tactic
import Componentry.Proofs.TickOrder
/-!
# When a ticker calls

A `Clockwork` is a ticker on a virtual clock with one parent, worked by a script: timers are started
and stopped by id, all are stopped at once, the parent is cancelled, and time passes.  Every start
has a callback of its own, which at some call may refuse to be called again.

`Clockwork.run_schedule` gives the moments at which the callback of a start is called, along every
script: an initial delay after the start and then at every interval, as often as the limit and the
callback have it (`Launch.quota`), and strictly before the start is cut off
(`Clockwork.horizon`).  What is called for one id depends only on the part of the script that
concerns this id, for a single id can be worked by itself (`Solo`).
-/

namespace Componentry

/-- What a timer is started with; times are in milliseconds. -/
structure Launch where
  id : String
  /-- The delay of the first call. -/
  initial : Nat
  interval : Nat
  limit : Nat
  /-- After how many calls the callback refuses to be called again with the next one, if it ever
  does. -/
  patience : Option Nat
  deriving DecidableEq, Repr

namespace Launch

/-- How often the callback is called if nothing cuts it off: as often as the limit has it, or up to
the call with which it refuses. -/
def quota (launch : Launch) : Nat :=
  match launch.patience with
  | none => launch.limit
  | some calls => min launch.limit (calls + 1)

/-- The moments of the calls of a launch, were there no bound on them. -/
def moment (launch : Launch) (start k : Nat) : Nat :=
  start + launch.initial + k * launch.interval

/-- Whether the callback is called again after the tick of a timer. -/
def goesOn (_ : Nat) (timer : Timer Launch) : Bool :=
  timer.label.patience ≠ some (timer.label.limit - timer.remaining)

end Launch

/-- What is called: the launch and its place among the starts. -/
structure Callback where
  ordinal : Nat
  launch : Launch
  deriving DecidableEq, Repr

/-- A timer seen from its id: which start it comes from does not matter. -/
def Timer.face (timer : Timer Callback) : Timer Launch where
  id := timer.id
  generation := 0
  label := timer.label.launch
  deadline := timer.deadline
  interval := timer.interval
  remaining := timer.remaining

/-- Whether a callback is called again after the tick of a timer. -/
def Callback.goesOn (moment : Nat) (timer : Timer Callback) : Bool :=
  Launch.goesOn moment timer.face

/-- What happens to a ticker. -/
inductive Stroke where
  | start (launch : Launch)
  | stop (id : String)
  | clear
  /-- The parent is cancelled. -/
  | cancel
  | wait (millis : Nat)
  deriving DecidableEq, Repr

namespace Stroke

/-- Whether something happens to the timer of an id. -/
def concerns (id : String) : Stroke → Bool
  | .start launch => launch.id = id
  | .stop other => other = id
  | .clear | .cancel | .wait _ => true

/-- Whether the timer of an id ends. -/
def cutsOff (id : String) : Stroke → Bool
  | .start launch => launch.id = id
  | .stop other => other = id
  | .clear | .cancel => true
  | .wait _ => false

/-- How long a stroke takes. -/
def duration : Stroke → Nat
  | .wait millis => millis
  | _ => 0

end Stroke

/-- A call, with its moment. -/
structure Call where
  moment : Nat
  callback : Callback
  deriving DecidableEq, Repr

/-- A ticker on a virtual clock. -/
structure Clockwork where
  ticker : Ticker Callback := {}
  clock : Nat := 0
  /-- Whether the parent is cancelled. -/
  cancelled : Bool := false
  /-- How many timers were started. -/
  launches : Nat := 0

namespace Clockwork

/-- One stroke; while time passes the timers tick that are due before the end of it. -/
def apply (c : Clockwork) : Stroke → Clockwork
  | .start launch => { c with
      ticker := c.ticker.start c.clock c.cancelled launch.id ⟨c.launches, launch⟩
        (1000 * launch.initial) (1000 * launch.interval) launch.limit
      launches := c.launches + 1 }
  | .stop id => { c with ticker := c.ticker.stop id }
  | .clear => { c with ticker := c.ticker.clear }
  | .cancel => { c with ticker := c.ticker.silence, cancelled := true }
  | .wait millis => { c with
      ticker := (c.ticker.runUntil Callback.goesOn (c.clock + millis)).1
      clock := c.clock + millis }

/-- The calls of one stroke. -/
def called (c : Clockwork) : Stroke → List Call
  | .wait millis => (c.ticker.runUntil Callback.goesOn (c.clock + millis)).2.map
      fun tick => ⟨tick.1, tick.2.label⟩
  | _ => []

/-- A script, stroke by stroke. -/
def run (c : Clockwork) : List Stroke → Clockwork
  | [] => c
  | stroke :: script => (c.apply stroke).run script

/-- The calls along a script. -/
def calls (c : Clockwork) : List Stroke → List Call
  | [] => []
  | stroke :: script => c.called stroke ++ (c.apply stroke).calls script

/-- The moments at which the callback of one start is called along a script. -/
def moments (c : Clockwork) (ordinal : Nat) (script : List Stroke) : List Nat :=
  ((c.calls script).filter fun call => call.callback.ordinal = ordinal).map Call.moment

/-- What is called for one id along a script, with the moments. -/
def heard (c : Clockwork) (id : String) (script : List Stroke) : List (Nat × Launch) :=
  ((c.calls script).filter fun call => call.callback.launch.id = id).map
    fun call => (call.moment, call.callback.launch)

/-- The moment at which the timer of an id is cut off by a script that is worked from a moment on,
or the end of the script. -/
def horizon (id : String) : Nat → List Stroke → Nat
  | clock, [] => clock
  | clock, stroke :: script =>
    if stroke.cutsOff id then clock else horizon id (clock + stroke.duration) script

/-! ### What holds along every script -/

/-- Timers hold their ids, have a tick left, and come from the starts so far. -/
structure Regular (c : Clockwork) : Prop where
  sound : c.ticker.Sound
  live : c.ticker.Live
  id_eq : ∀ timer ∈ c.ticker.timers, timer.id = timer.label.launch.id
  ordinal_lt : ∀ timer ∈ c.ticker.timers, timer.label.ordinal < c.launches

/-- Where a timer comes from that is there after a stroke: it was there before and has not been cut
off, or it is the one that is started. -/
lemma Regular.mem_apply {c : Clockwork} (h : c.Regular) {stroke : Stroke} {timer : Timer Callback}
    (ht : timer ∈ (c.apply stroke).ticker.timers) :
    (∃ old ∈ c.ticker.timers, old.id = timer.id ∧ old.label = timer.label
        ∧ stroke.cutsOff timer.id = false)
      ∨ ∃ launch, stroke = .start launch ∧ timer.id = launch.id
        ∧ timer.label = ⟨c.launches, launch⟩ := by
  cases stroke with
  | start launch =>
      obtain ⟨hold, hne⟩ | ⟨rfl, -⟩ := h.sound.mem_start.mp ht
      · exact .inl ⟨timer, hold, rfl, rfl, by simpa [Stroke.cutsOff] using hne.symm⟩
      · exact .inr ⟨launch, rfl, rfl, rfl⟩
  | stop id =>
      obtain ⟨hold, hne⟩ := h.sound.mem_stop.mp ht
      exact .inl ⟨timer, hold, rfl, rfl, by simpa [Stroke.cutsOff] using hne.symm⟩
  | clear => exact absurd ht List.not_mem_nil
  | cancel => exact absurd ht List.not_mem_nil
  | wait millis =>
      obtain ⟨old, hold, hid, hlabel⟩ :=
        (Ticker.forall_ticksUntil (P := fun id label => ∃ old ∈ c.ticker.timers, old.id = id
          ∧ old.label = label) fun timer ht => ⟨timer, ht, rfl, rfl⟩).2 timer ht
      exact .inl ⟨old, hold, hid, hlabel, rfl⟩

/-- A call comes from a timer. -/
lemma exists_of_mem_called {c : Clockwork} {stroke : Stroke} {call : Call}
    (h : call ∈ c.called stroke) : ∃ timer ∈ c.ticker.timers, timer.label = call.callback := by
  cases stroke with
  | wait millis =>
      obtain ⟨tick, htick, rfl⟩ := List.mem_map.mp h
      exact (Ticker.forall_ticksUntil (P := fun _ label => ∃ timer ∈ c.ticker.timers,
        timer.label = label) fun timer ht => ⟨timer, ht, rfl⟩).1 tick htick
  | start _ | stop _ | clear | cancel => exact absurd h List.not_mem_nil

lemma regular_empty : ({} : Clockwork).Regular :=
  ⟨Ticker.sound_empty, by simp [Ticker.Live], by simp, by simp⟩

lemma clock_apply (c : Clockwork) (stroke : Stroke) :
    (c.apply stroke).clock = c.clock + stroke.duration := by
  cases stroke <;> rfl

lemma launches_le (c : Clockwork) (stroke : Stroke) : c.launches ≤ (c.apply stroke).launches := by
  cases stroke with
  | start launch => exact Nat.le_succ _
  | _ => exact le_rfl

lemma Regular.apply {c : Clockwork} (h : c.Regular) (stroke : Stroke) : (c.apply stroke).Regular := by
  have hstart : ∀ {timer : Timer Callback}, (∃ launch, stroke = .start launch
      ∧ timer.id = launch.id ∧ timer.label = ⟨c.launches, launch⟩) →
      timer.id = timer.label.launch.id ∧ timer.label.ordinal < (c.apply stroke).launches := by
    rintro timer ⟨launch, rfl, hid, hlabel⟩
    rw [hid, hlabel]
    exact ⟨rfl, Nat.lt_succ_self _⟩
  have hsound : (c.apply stroke).ticker.Sound ∧ (c.apply stroke).ticker.Live := by
    cases stroke with
    | start launch =>
        refine ⟨h.sound.start, fun timer ht => ?_⟩
        obtain ⟨hold, -⟩ | ⟨rfl, hlimit, -⟩ := h.sound.mem_start.mp ht
        · exact h.live timer hold
        · exact Nat.pos_of_ne_zero hlimit
    | stop id =>
        exact ⟨h.sound.stop id, fun timer ht => h.live timer (h.sound.mem_stop.mp ht).1⟩
    | clear => exact ⟨Ticker.sound_clear _, fun _ ht => absurd ht List.not_mem_nil⟩
    | cancel => exact ⟨h.sound.silence, fun _ ht => absurd ht List.not_mem_nil⟩
    | wait millis => exact h.sound.ticksUntil h.live _
  refine ⟨hsound.1, hsound.2, fun timer ht => ?_, fun timer ht => ?_⟩
  · obtain ⟨old, hold, hid, hlabel, -⟩ | hnew := h.mem_apply ht
    · rw [← hid, ← hlabel, h.id_eq old hold]
    · exact (hstart hnew).1
  · obtain ⟨old, hold, -, hlabel, -⟩ | hnew := h.mem_apply ht
    · rw [← hlabel]
      exact (h.ordinal_lt old hold).trans_le (c.launches_le stroke)
    · exact (hstart hnew).2

lemma regular_run {c : Clockwork} (h : c.Regular) (script : List Stroke) :
    (c.run script).Regular := by
  induction script generalizing c with
  | nil => exact h
  | cons stroke script ih => exact ih (h.apply stroke)

lemma calls_append (c : Clockwork) (script more : List Stroke) :
    c.calls (script ++ more) = c.calls script ++ (c.run script).calls more := by
  induction script generalizing c with
  | nil => rfl
  | cons stroke script ih => rw [List.cons_append, calls, ih, calls, List.append_assoc, run]

lemma moments_cons (c : Clockwork) (ordinal : Nat) (stroke : Stroke) (script : List Stroke) :
    c.moments ordinal (stroke :: script)
      = ((c.called stroke).filter fun call => call.callback.ordinal = ordinal).map Call.moment
        ++ (c.apply stroke).moments ordinal script := by
  rw [moments, calls, List.filter_append, List.map_append, moments]

/-! ### One id by itself -/

end Clockwork

/-- The timer that a launch starts, as it is seen from its id after some calls. -/
def Launch.timer (launch : Launch) (start k : Nat) : Timer Launch where
  id := launch.id
  generation := 0
  label := launch
  deadline := 1000 * launch.moment start k
  interval := 1000 * launch.interval
  remaining := launch.limit - k

/-- What a clockwork holds for one id. -/
structure Solo where
  timer? : Option (Timer Launch) := none
  clock : Nat := 0
  cancelled : Bool := false

namespace Solo

/-- One stroke, as far as an id is concerned. -/
def apply (id : String) (s : Solo) : Stroke → Solo
  | .start launch =>
    if launch.id = id then { s with
      timer? := if launch.limit ≠ 0 ∧ s.cancelled = false ∧ launch.interval ≠ 0 then
          some (launch.timer s.clock 0)
        else none }
    else s
  | .stop other => if other = id then { s with timer? := none } else s
  | .clear => { s with timer? := none }
  | .cancel => { s with timer? := none, cancelled := true }
  | .wait millis => { s with
      timer? := s.timer?.bind fun timer =>
        timer.left Launch.goesOn (s.clock + millis) timer.remaining
      clock := s.clock + millis }

/-- What is called in one stroke, with the moments. -/
def called (s : Solo) : Stroke → List (Nat × Launch)
  | .wait millis => (s.timer?.map fun timer =>
      (timer.ticks Launch.goesOn (s.clock + millis) timer.remaining).map
        fun tick => (tick.1, tick.2.label)).getD []
  | _ => []

/-- What is called along a script. -/
def heard (id : String) (s : Solo) : List Stroke → List (Nat × Launch)
  | [] => []
  | stroke :: script => s.called stroke ++ (s.apply id stroke).heard id script

/-- The strokes that do not concern an id can be left out. -/
lemma heard_filter (id : String) (s : Solo) (script : List Stroke) :
    s.heard id (script.filter (Stroke.concerns id)) = s.heard id script := by
  induction script generalizing s with
  | nil => rfl
  | cons stroke script ih =>
      by_cases hconcerns : stroke.concerns id = true
      · rw [List.filter_cons_of_pos hconcerns, heard, heard, ih]
      · have hidle : s.called stroke = [] ∧ s.apply id stroke = s := by
          cases stroke with
          | start launch => exact ⟨rfl, if_neg (by simpa [Stroke.concerns] using hconcerns)⟩
          | stop other => exact ⟨rfl, if_neg (by simpa [Stroke.concerns] using hconcerns)⟩
          | clear | cancel | wait _ => exact absurd rfl hconcerns
        rw [List.filter_cons_of_neg hconcerns, heard, ih, hidle.1, hidle.2, List.nil_append]

end Solo

namespace Timer

variable {finish : Nat}

lemma ticks_face (fuel : Nat) (timer : Timer Callback) :
    (timer.ticks Callback.goesOn finish fuel).map (fun tick => (tick.1, tick.2.label.launch))
      = (timer.face.ticks Launch.goesOn finish fuel).map fun tick => (tick.1, tick.2.label) := by
  induction fuel generalizing timer with
  | zero => rfl
  | succ fuel ih =>
      have hrest := ih timer.next
      have hsame : Callback.goesOn timer.wake timer = Launch.goesOn timer.face.wake timer.face := rfl
      have hwake : timer.face.wake = timer.wake := rfl
      have hremaining : timer.face.remaining = timer.remaining := rfl
      rw [ticks, ticks, ← hsame, hwake, hremaining]
      split_ifs
      · rw [List.map_cons, List.map_cons, hrest]
        rfl
      · rfl
      · rfl

lemma left_face (fuel : Nat) (timer : Timer Callback) :
    (timer.left Callback.goesOn finish fuel).map face
      = timer.face.left Launch.goesOn finish fuel := by
  induction fuel generalizing timer with
  | zero => rfl
  | succ fuel ih =>
      have hrest := ih timer.next
      have hsame : Callback.goesOn timer.wake timer = Launch.goesOn timer.face.wake timer.face := rfl
      have hwake : timer.face.wake = timer.wake := rfl
      have hremaining : timer.face.remaining = timer.remaining := rfl
      rw [left, left, ← hsame, hwake, hremaining]
      split_ifs
      · exact hrest
      · rfl
      · rfl

end Timer

namespace Clockwork

/-- What a clockwork holds for an id. -/
def solo (c : Clockwork) (id : String) : Solo where
  timer? := (c.ticker.timerOf? id).map Timer.face
  clock := c.clock
  cancelled := c.cancelled

section Solo

variable {c : Clockwork}

lemma face_started (launch : Launch) (ordinal : Nat) :
    (Ticker.started c.ticker c.clock launch.id ⟨ordinal, launch⟩ (1000 * launch.initial)
      (1000 * launch.interval) launch.limit).face = launch.timer c.clock 0 := by
  have hround : roundUp (1000 * c.clock + 1000 * launch.initial)
      = 1000 * launch.moment c.clock 0 := by
    rw [roundUp, Launch.moment]
    omega
  simp only [Ticker.started, Timer.face, Launch.timer, hround, Nat.sub_zero]

/-- **A stroke, seen from one id**, is the stroke on what is held for the id. -/
lemma Regular.solo_apply (h : c.Regular) (id : String) (stroke : Stroke) :
    (c.apply stroke).solo id = (c.solo id).apply id stroke := by
  cases stroke with
  | start launch =>
      have hinterval : 1000 * launch.interval ≠ 0 ↔ launch.interval ≠ 0 := by omega
      have hstarted : ((c.apply (.start launch)).ticker.timerOf? id).map Timer.face
          = if launch.id = id then
              if launch.limit ≠ 0 ∧ c.cancelled = false ∧ launch.interval ≠ 0 then
                some (launch.timer c.clock 0)
              else none
            else (c.ticker.timerOf? id).map Timer.face := by
        simp only [Clockwork.apply, h.sound.timerOf?_start, hinterval]
        split_ifs
        · rw [Option.map_some, face_started]
        · rfl
        · rfl
      rw [solo, hstarted, Solo.apply]
      by_cases hid : launch.id = id
      · rw [if_pos hid, if_pos hid]
        rfl
      · rw [if_neg hid, if_neg hid]
        rfl
  | stop other =>
      simp only [Clockwork.apply, solo, Solo.apply, h.sound.timerOf?_stop]
      split_ifs <;> rfl
  | clear => rfl
  | cancel => rfl
  | wait millis =>
      simp only [Clockwork.apply, solo, Solo.apply, (h.sound.runUntil_eq h.live id).2]
      cases c.ticker.timerOf? id with
      | none => rfl
      | some timer =>
          simp only [Option.bind_some, Option.map_some, Timer.left_face]
          rfl

/-- The calls of a stroke for one id. -/
lemma Regular.called_solo (h : c.Regular) (id : String) (stroke : Stroke) :
    ((c.called stroke).filter fun call => call.callback.launch.id = id).map
        (fun call => (call.moment, call.callback.launch))
      = (c.solo id).called stroke := by
  cases stroke with
  | start _ | stop _ | clear | cancel => rfl
  | wait millis =>
      have hid : ∀ tick ∈ (c.ticker.runUntil Callback.goesOn (c.clock + millis)).2,
          tick.2.id = tick.2.label.launch.id :=
        (Ticker.forall_ticksUntil (P := fun id (label : Callback) => id = label.launch.id) h.id_eq).1
      have hfilter : ((c.ticker.runUntil Callback.goesOn (c.clock + millis)).2.filter
          fun tick => tick.2.label.launch.id = id)
          = (c.ticker.runUntil Callback.goesOn (c.clock + millis)).2.filter
            fun tick => tick.2.id = id :=
        List.filter_congr fun tick htick => by rw [hid tick htick]
      rw [called, List.filter_map, List.map_map]
      simp only [Function.comp_def]
      rw [hfilter, (h.sound.runUntil_eq h.live id).1, Solo.called, solo]
      cases c.ticker.timerOf? id with
      | none => rfl
      | some timer => exact Timer.ticks_face _ timer

/-- What is called for an id is what it calls by itself. -/
lemma Regular.heard_eq (h : c.Regular) (id : String) (script : List Stroke) :
    c.heard id script = (c.solo id).heard id script := by
  induction script generalizing c with
  | nil => rfl
  | cons stroke script ih =>
      rw [heard, calls, List.filter_append, List.map_append, h.called_solo, Solo.heard,
        ← h.solo_apply, ← ih (h.apply stroke), heard]

end Solo

end Clockwork

/-! ### The calls of one launch -/

namespace Launch

variable {launch : Launch} {start k : Nat}

/-- What is left of the timer of a launch after some calls. -/
def timer? (launch : Launch) (start k : Nat) : Option (Timer Launch) :=
  if k < launch.quota then some (launch.timer start k) else none

lemma quota_le (launch : Launch) : launch.quota ≤ launch.limit := by
  rw [quota]
  split
  · exact le_rfl
  · exact Nat.min_le_left _ _

lemma wake_timer (launch : Launch) (start k : Nat) :
    (launch.timer start k).wake = launch.moment start k := by
  show 1000 * ((1000 * launch.moment start k + 999) / 1000) / 1000 = launch.moment start k
  omega

lemma next_timer (launch : Launch) (start k : Nat) :
    (launch.timer start k).next = launch.timer start (k + 1) := by
  have hmoment : 1000 * launch.moment start k + 1000 * launch.interval
      = 1000 * launch.moment start (k + 1) := by
    rw [moment, moment, Nat.add_mul, Nat.one_mul]
    omega
  simp only [Timer.next, timer, hmoment, Nat.sub_sub]

/-- The timer goes on exactly up to the last call. -/
lemma goesOn_iff (hk : k < launch.quota) (now : Nat) :
    goesOn now (launch.timer start k) = true ∧ 1 < (launch.timer start k).remaining
      ↔ k + 1 < launch.quota := by
  have hle := launch.quota_le
  have hcalls : launch.limit - (launch.limit - k) = k := by omega
  simp only [goesOn, timer, hcalls, ne_eq, decide_not, Bool.not_eq_true', decide_eq_false_iff_not]
  rw [quota] at hk ⊢
  cases hpatience : launch.patience with
  | none =>
      simp only [hpatience] at hk ⊢
      simp only [reduceCtorEq, not_false_eq_true, true_and]
      omega
  | some calls =>
      simp only [hpatience, Option.some.injEq] at hk ⊢
      omega

lemma moment_le {i : Nat} (h : k ≤ i) : launch.moment start k ≤ launch.moment start i := by
  have hmul : k * launch.interval ≤ i * launch.interval := Nat.mul_le_mul_right _ h
  rw [moment, moment]
  omega

/-- Up to a moment the timer of a launch makes some calls, all of them before the moment, and the
next one is not before it. -/
lemma exists_calls (start finish : Nat) {fuel : Nat} (hk : k < launch.quota)
    (hfuel : launch.limit - k ≤ fuel) :
    ∃ n, ((launch.timer start k).ticks goesOn finish fuel).map (fun tick => (tick.1, tick.2.label))
        = (List.range' k n).map (fun i => (launch.moment start i, launch))
      ∧ (launch.timer start k).left goesOn finish fuel = launch.timer? start (k + n)
      ∧ k + n ≤ launch.quota
      ∧ (∀ i, k ≤ i → i < k + n → launch.moment start i < finish)
      ∧ (k + n < launch.quota → finish ≤ launch.moment start (k + n)) := by
  have hle := launch.quota_le
  induction fuel generalizing k with
  | zero => omega
  | succ fuel ih =>
      rw [Timer.ticks, Timer.left, wake_timer]
      by_cases hwake : launch.moment start k < finish
      · simp only [if_pos hwake, goesOn_iff hk, next_timer]
        by_cases hnext : k + 1 < launch.quota
        · obtain ⟨n, hticks, hleft, hn, hbefore, hafter⟩ := ih hnext (by omega)
          have hcount : k + (n + 1) = k + 1 + n := by omega
          refine ⟨n + 1, ?_, ?_, by omega, fun i hk' hi => ?_, fun hmore => ?_⟩
          · rw [if_pos hnext, List.map_cons, hticks, List.range'_succ, List.map_cons]
            rfl
          · rw [if_pos hnext, hleft, hcount]
          · obtain rfl | hlt := Nat.eq_or_lt_of_le hk'
            · exact hwake
            · exact hbefore i hlt (by omega)
          · rw [hcount] at hmore ⊢
            exact hafter hmore
        · have hlast : k + 1 = launch.quota := by omega
          refine ⟨1, ?_, ?_, by omega, fun i hk' hi => ?_, fun hmore => by omega⟩
          · rw [if_neg hnext]
            rfl
          · rw [if_neg hnext, timer?, if_neg hnext]
          · rwa [show i = k by omega]
      · simp only [if_neg hwake]
        exact ⟨0, rfl, by rw [timer?, if_pos (by simpa using hk)]; rfl, by omega,
          fun i hk' hi => by omega, fun _ => by simpa using hwake⟩

end Launch

namespace Clockwork

section Schedule

variable {c : Clockwork} {launch : Launch} {ordinal start k : Nat} {stroke : Stroke}

/-- A start that was cut off, or has started no timer. -/
structure Spent (c : Clockwork) (ordinal : Nat) : Prop where
  regular : c.Regular
  lt : ordinal < c.launches
  ne : ∀ timer ∈ c.ticker.timers, timer.label.ordinal ≠ ordinal

/-- A start that has not been cut off, after some of its calls: its timer is the one of the id, and
the next call is still to come. -/
structure Stage (c : Clockwork) (launch : Launch) (ordinal start k : Nat) : Prop where
  regular : c.Regular
  lt : ordinal < c.launches
  own : ∀ timer ∈ c.ticker.timers,
    timer.label.ordinal = ordinal ↔ timer.label.launch.id = launch.id
  le : k ≤ launch.quota
  ahead : k < launch.quota → c.clock ≤ launch.moment start k
  timer : (c.solo launch.id).timer? = launch.timer? start k

lemma Spent.apply (h : c.Spent ordinal) (stroke : Stroke) : (c.apply stroke).Spent ordinal := by
  refine ⟨h.regular.apply stroke, h.lt.trans_le (c.launches_le stroke), fun timer ht => ?_⟩
  obtain ⟨old, hold, -, hlabel, -⟩ | ⟨launch, -, -, hlabel⟩ := h.regular.mem_apply ht
  · rw [← hlabel]
    exact h.ne old hold
  · rw [hlabel]
    exact h.lt.ne'

lemma Spent.moments_eq_nil (h : c.Spent ordinal) (script : List Stroke) :
    c.moments ordinal script = [] := by
  induction script generalizing c with
  | nil => rfl
  | cons stroke script ih =>
      have hnone : ((c.called stroke).filter fun call => call.callback.ordinal = ordinal) = [] := by
        refine List.filter_eq_nil_iff.mpr fun call hcall => ?_
        obtain ⟨timer, ht, hlabel⟩ := exists_of_mem_called hcall
        simpa [← hlabel] using h.ne timer ht
      rw [moments_cons, hnone, ih (h.apply stroke)]
      rfl

/-- What cuts a start off leaves no timer of it. -/
lemma Stage.spent (h : c.Stage launch ordinal start k) (hcut : stroke.cutsOff launch.id = true) :
    (c.apply stroke).Spent ordinal := by
  refine ⟨h.regular.apply stroke, h.lt.trans_le (c.launches_le stroke), fun timer ht => ?_⟩
  obtain ⟨old, hold, hid, hlabel, hkept⟩ | ⟨other, -, -, hlabel⟩ := h.regular.mem_apply ht
  · rw [← hlabel]
    intro hordinal
    have hown : timer.id = launch.id := by
      rw [← hid, h.regular.id_eq old hold]
      exact (h.own old hold).mp hordinal
    rw [hown, hcut] at hkept
    cases hkept
  · rw [hlabel]
    exact h.lt.ne'

/-- A stroke that does not cut a start off leaves its timer the one of the id. -/
lemma Stage.own_apply (h : c.Stage launch ordinal start k)
    (hcut : stroke.cutsOff launch.id = false) :
    ∀ timer ∈ (c.apply stroke).ticker.timers,
      timer.label.ordinal = ordinal ↔ timer.label.launch.id = launch.id := by
  intro timer ht
  obtain ⟨old, hold, -, hlabel, -⟩ | ⟨other, rfl, -, hlabel⟩ := h.regular.mem_apply ht
  · rw [← hlabel]
    exact h.own old hold
  · have hne : other.id ≠ launch.id := by simpa [Stroke.cutsOff] using hcut
    rw [hlabel]
    exact ⟨fun hordinal => absurd hordinal h.lt.ne', fun hid => absurd hid hne⟩

/-- Other starts and stops change nothing. -/
lemma Stage.idle (h : c.Stage launch ordinal start k) (hcut : stroke.cutsOff launch.id = false)
    (hwait : ∀ millis, stroke ≠ .wait millis) :
    (c.apply stroke).Stage launch ordinal start k ∧ c.called stroke = [] := by
  have hidle : (c.solo launch.id).apply launch.id stroke = c.solo launch.id
      ∧ c.called stroke = [] ∧ (c.apply stroke).clock = c.clock := by
    cases stroke with
    | start other => exact ⟨if_neg (by simpa [Stroke.cutsOff] using hcut), rfl, rfl⟩
    | stop other => exact ⟨if_neg (by simpa [Stroke.cutsOff] using hcut), rfl, rfl⟩
    | clear | cancel => cases hcut
    | wait millis => exact absurd rfl (hwait millis)
  obtain ⟨hsolo, hcalled, hclock⟩ := hidle
  refine ⟨⟨h.regular.apply stroke, h.lt.trans_le (c.launches_le stroke), h.own_apply hcut, h.le,
    fun hk => ?_, ?_⟩, hcalled⟩
  · rw [hclock]
    exact h.ahead hk
  · rw [h.regular.solo_apply, hsolo, h.timer]

/-- While time passes the callback is called, in turn, at the moments that pass. -/
lemma Stage.wait (h : c.Stage launch ordinal start k) (millis : Nat) :
    ∃ n, (c.apply (.wait millis)).Stage launch ordinal start (k + n)
      ∧ ((c.called (.wait millis)).filter fun call => call.callback.ordinal = ordinal).map
          Call.moment = (List.range' k n).map (launch.moment start)
      ∧ ∀ i, k ≤ i → i < k + n → launch.moment start i < c.clock + millis := by
  -- The calls of the start are those of its id.
  have hfilter : ((c.called (.wait millis)).filter fun call => call.callback.ordinal = ordinal).map
        Call.moment
      = ((c.solo launch.id).called (.wait millis)).map Prod.fst := by
    rw [← h.regular.called_solo, List.map_map]
    congr 1
    refine List.filter_congr fun call hcall => ?_
    obtain ⟨timer, ht, hlabel⟩ := exists_of_mem_called hcall
    rw [← hlabel]
    simpa using h.own timer ht
  have hstage : ∀ n, k + n ≤ launch.quota →
      (k + n < launch.quota → c.clock + millis ≤ launch.moment start (k + n)) →
      ((c.solo launch.id).apply launch.id (.wait millis)).timer? = launch.timer? start (k + n) →
      (c.apply (.wait millis)).Stage launch ordinal start (k + n) := fun n hle hahead htimer =>
    ⟨h.regular.apply _, h.lt, h.own_apply rfl, hle, hahead, by rw [h.regular.solo_apply, htimer]⟩
  rw [hfilter]
  simp only [Solo.called, Solo.apply, h.timer] at hstage ⊢
  by_cases hk : k < launch.quota
  · obtain ⟨n, hticks, hleft, hle, hbefore, hahead⟩ :=
      Launch.exists_calls start (c.clock + millis) hk le_rfl
    refine ⟨n, hstage n hle hahead ?_, ?_, hbefore⟩
    · rw [Launch.timer?, if_pos hk, Option.bind_some]
      exact hleft
    · rw [Launch.timer?, if_pos hk, Option.map_some, Option.getD_some]
      show (((launch.timer start k).ticks Launch.goesOn (c.clock + millis)
        (launch.limit - k)).map fun tick => (tick.1, tick.2.label)).map Prod.fst = _
      rw [hticks, List.map_map]
      rfl
  · have hdone : launch.timer? start k = none := if_neg hk
    refine ⟨0, hstage 0 h.le (fun hmore => absurd hmore hk) ?_, ?_, fun i hi hi' => by omega⟩
    · rw [hdone]
      exact hdone.symm
    · rw [hdone]
      rfl

/-- A stroke that does not cut a start off: the callback is called at the moments that pass. -/
lemma Stage.pass (h : c.Stage launch ordinal start k) (hcut : stroke.cutsOff launch.id = false) :
    ∃ n, (c.apply stroke).Stage launch ordinal start (k + n)
      ∧ ((c.called stroke).filter fun call => call.callback.ordinal = ordinal).map Call.moment
        = (List.range' k n).map (launch.moment start)
      ∧ ∀ i, k ≤ i → i < k + n → launch.moment start i < (c.apply stroke).clock := by
  by_cases hwait : ∃ millis, stroke = .wait millis
  · obtain ⟨millis, rfl⟩ := hwait
    exact h.wait millis
  · obtain ⟨hstage, hidle⟩ := h.idle hcut fun millis heq => hwait ⟨millis, heq⟩
    rw [hidle]
    exact ⟨0, hstage, rfl, fun i hi hi' => by omega⟩

lemma le_horizon (id : String) (clock : Nat) (script : List Stroke) :
    clock ≤ horizon id clock script := by
  induction script generalizing clock with
  | nil => exact le_rfl
  | cons stroke script ih =>
      rw [horizon]
      split_ifs
      · exact le_rfl
      · exact (Nat.le_add_right _ _).trans (ih _)

/-- No call that is still to come is before now. -/
lemma Stage.filter_eq_nil (h : c.Stage launch ordinal start k) :
    (((List.range' k (launch.quota - k)).map (launch.moment start)).filter
      fun moment => moment < c.clock) = [] := by
  refine List.filter_eq_nil_iff.mpr fun moment hmoment => ?_
  obtain ⟨i, hi, rfl⟩ := List.mem_map.mp hmoment
  obtain ⟨hki, hiq⟩ := List.mem_range'_1.mp hi
  have hle : launch.moment start k ≤ launch.moment start i := launch.moment_le hki
  simpa using (h.ahead (by omega)).trans hle

/-- **The calls of a start**, from any stage of it on. -/
lemma Stage.moments_eq (h : c.Stage launch ordinal start k) (script : List Stroke) :
    c.moments ordinal script
      = ((List.range' k (launch.quota - k)).map (launch.moment start)).filter
          fun moment => moment < horizon launch.id c.clock script := by
  induction script generalizing c k with
  | nil => exact h.filter_eq_nil.symm
  | cons stroke script ih =>
      rw [moments_cons, horizon]
      by_cases hcut : stroke.cutsOff launch.id = true
      · have hidle : c.called stroke = [] := by
          cases stroke with
          | wait millis => cases hcut
          | start _ | stop _ | clear | cancel => rfl
        simp only [if_pos hcut]
        rw [hidle, (h.spent hcut).moments_eq_nil, h.filter_eq_nil]
        rfl
      · obtain ⟨n, hstage, hmoments, hbefore⟩ := h.pass (by simpa using hcut)
        have hsplit : List.range' k (launch.quota - k)
            = List.range' k n ++ List.range' (k + n) (launch.quota - (k + n)) := by
          have hle := hstage.le
          rw [List.range'_append_1]
          congr 1
          omega
        have hkept : ((List.range' k n).map (launch.moment start)).filter
            (fun moment => moment < horizon launch.id (c.apply stroke).clock script)
            = (List.range' k n).map (launch.moment start) := by
          refine List.filter_eq_self.mpr fun moment hmoment => ?_
          obtain ⟨i, hi, rfl⟩ := List.mem_map.mp hmoment
          obtain ⟨hki, hin⟩ := List.mem_range'_1.mp hi
          simpa using (hbefore i hki hin).trans_le (le_horizon _ _ _)
        simp only [if_neg hcut, ← clock_apply]
        rw [hmoments, ih hstage, hsplit, List.map_append, List.filter_append, hkept]

end Schedule

/-! ### Starts -/

lemma run_append (c : Clockwork) (script more : List Stroke) :
    c.run (script ++ more) = (c.run script).run more := by
  induction script generalizing c with
  | nil => rfl
  | cons stroke script ih => exact ih (c.apply stroke)

/-- What is called along a script has been started before its end. -/
lemma Regular.ordinal_lt_of_mem {c : Clockwork} (h : c.Regular) {script : List Stroke} {call : Call}
    (hcall : call ∈ c.calls script) : call.callback.ordinal < (c.run script).launches := by
  have hle : ∀ (c : Clockwork) (script : List Stroke), c.launches ≤ (c.run script).launches := by
    intro c script
    induction script generalizing c with
    | nil => exact le_rfl
    | cons stroke script ih => exact (c.launches_le stroke).trans (ih _)
  induction script generalizing c with
  | nil => exact absurd hcall List.not_mem_nil
  | cons stroke script ih =>
      obtain hfirst | hrest := List.mem_append.mp hcall
      · obtain ⟨timer, ht, hlabel⟩ := exists_of_mem_called hfirst
        rw [← hlabel]
        exact (h.ordinal_lt timer ht).trans_le (hle c (stroke :: script))
      · exact ih (h.apply stroke) hrest

section Start

variable {c : Clockwork} {launch : Launch}

/-- A start under a parent that is not cancelled. -/
lemma Regular.stage_start (h : c.Regular) (hcancelled : c.cancelled = false)
    (hinterval : 0 < launch.interval) :
    (c.apply (.start launch)).Stage launch c.launches c.clock 0 := by
  refine ⟨h.apply _, Nat.lt_succ_self _, fun timer ht => ?_, Nat.zero_le _, fun _ => ?_, ?_⟩
  · obtain ⟨old, hold, hid, hlabel, hkept⟩ | ⟨other, heq, -, hlabel⟩ := h.mem_apply ht
    · -- The timers of other ids come from earlier starts.
      have hne : timer.label.launch.id ≠ launch.id := by
        rw [← hlabel, ← h.id_eq old hold, hid]
        simpa [Stroke.cutsOff, eq_comm] using hkept
      have hlt := h.ordinal_lt old hold
      rw [hlabel] at hlt
      exact ⟨fun hordinal => absurd hordinal hlt.ne, fun hid => absurd hid hne⟩
    · cases heq
      rw [hlabel]
      exact ⟨fun _ => rfl, fun _ => rfl⟩
  · show c.clock ≤ c.clock + launch.initial + 0 * launch.interval
    omega
  · have hquota : 0 < launch.quota ↔ launch.limit ≠ 0 := by
      rw [Launch.quota]
      split <;> omega
    rw [h.solo_apply, Solo.apply, if_pos rfl, Launch.timer?]
    simp only [hquota]
    congr 1
    simp [solo, hcancelled, hinterval.ne']

/-- A start under a parent that is cancelled, or without any calls to make. -/
lemma Regular.spent_start (h : c.Regular) (hidle : launch.limit = 0 ∨ c.cancelled = true) :
    (c.apply (.start launch)).Spent c.launches := by
  refine ⟨h.apply _, Nat.lt_succ_self _, fun timer ht => ?_⟩
  obtain ⟨hold, -⟩ | ⟨-, hlimit, hsilent, -⟩ := h.sound.mem_start.mp ht
  · exact (h.ordinal_lt timer hold).ne
  · obtain hzero | hcancelled := hidle
    · exact absurd hzero hlimit
    · rw [hcancelled] at hsilent
      cases hsilent

/-- What is called for a start is called after it. -/
lemma moments_start (before after : List Stroke) (launch : Launch) :
    ({} : Clockwork).moments (({} : Clockwork).run before).launches
        (before ++ .start launch :: after)
      = ((({} : Clockwork).run before).apply (.start launch)).moments
          (({} : Clockwork).run before).launches after := by
  have hnone : ((({} : Clockwork).calls before).filter fun call =>
      call.callback.ordinal = (({} : Clockwork).run before).launches) = [] := by
    refine List.filter_eq_nil_iff.mpr fun call hcall => ?_
    simpa using (regular_empty.ordinal_lt_of_mem hcall).ne
  rw [moments, calls_append, List.filter_append, hnone]
  rfl

end Start

end Clockwork

end Componentry

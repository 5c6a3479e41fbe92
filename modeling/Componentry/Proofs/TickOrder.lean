import Mathlib.Tactic
import Componentry.Proofs.Ticker
/-!
# Each timer by itself

While time passes the timers of a ticker take turns, the one that is due first in front.  For a
single one of them this makes no difference: `Timer.ticks` are its ticks up to a moment, and
`Timer.left` is what is left of it then, both read off the timer alone.
`Ticker.Sound.runUntil_eq` says that a stretch of time has just these for every id, whatever the
other ids hold.
-/

namespace Componentry

namespace Timer

variable {α : Type}

/-- The ticks of a timer before a moment, at most `fuel` of them. -/
def ticks (goOn : Nat → Timer α → Bool) (finish : Nat) : Nat → Timer α → List (Nat × Timer α)
  | 0, _ => []
  | fuel + 1, timer =>
    if timer.wake < finish then
      (timer.wake, timer) ::
        if goOn timer.wake timer = true ∧ 1 < timer.remaining then ticks goOn finish fuel timer.next
        else []
    else []

/-- What is left of a timer after its ticks before a moment. -/
def left (goOn : Nat → Timer α → Bool) (finish : Nat) : Nat → Timer α → Option (Timer α)
  | 0, timer => some timer
  | fuel + 1, timer =>
    if timer.wake < finish then
      if goOn timer.wake timer = true ∧ 1 < timer.remaining then left goOn finish fuel timer.next
      else none
    else some timer

end Timer

namespace Ticker

variable {α : Type} {ticker : Ticker α}

/-! ### The timer of an id -/

/-- The timer of an id. -/
def timerOf? (ticker : Ticker α) (id : String) : Option (Timer α) :=
  ticker.timers.find? fun timer => timer.id = id

lemma timerOf?_eq_none_iff {id : String} :
    ticker.timerOf? id = none ↔ ∀ timer ∈ ticker.timers, timer.id ≠ id := by
  simp [timerOf?]

namespace Sound

lemma silence (h : ticker.Sound) : ticker.silence.Sound :=
  ⟨fun _ ht => absurd ht List.not_mem_nil, h.inj, h.lt, h.keys, List.nodup_nil⟩

lemma timerOf?_eq_some_iff (h : ticker.Sound) {id : String} {timer : Timer α} :
    ticker.timerOf? id = some timer ↔ timer ∈ ticker.timers ∧ timer.id = id := by
  constructor
  · intro hfind
    exact ⟨List.mem_of_find?_eq_some hfind, by simpa using List.find?_some hfind⟩
  · rintro ⟨ht, rfl⟩
    cases hfind : ticker.timerOf? timer.id with
    | none => exact absurd rfl (timerOf?_eq_none_iff.mp hfind timer ht)
    | some other =>
        have hid : other.id = timer.id := by simpa using List.find?_some hfind
        rw [h.eq_of_id (List.mem_of_find?_eq_some hfind) ht hid]

lemma timerOf?_stop (h : ticker.Sound) (id other : String) :
    (ticker.stop id).timerOf? other = if id = other then none else ticker.timerOf? other := by
  refine Option.ext fun timer => ?_
  rw [(h.stop id).timerOf?_eq_some_iff, h.mem_stop]
  split_ifs with heq
  · subst heq
    simp
  · rw [h.timerOf?_eq_some_iff]
    constructor
    · exact fun hmem => ⟨hmem.1.1, hmem.2⟩
    · rintro ⟨hmem, rfl⟩
      exact ⟨⟨hmem, Ne.symm heq⟩, rfl⟩

lemma timerOf?_start (h : ticker.Sound) (now : Nat) (silent : Bool) (id : String) (label : α)
    (initial interval limit : Nat) (other : String) :
    (ticker.start now silent id label initial interval limit).timerOf? other
      = if id = other then
          if limit ≠ 0 ∧ silent = false ∧ interval ≠ 0 then
            some (started ticker now id label initial interval limit)
          else none
        else ticker.timerOf? other := by
  refine Option.ext fun timer => ?_
  rw [h.start.timerOf?_eq_some_iff, h.mem_start]
  split_ifs with heq hstarts
  · subst heq
    constructor
    · rintro ⟨⟨-, hne⟩ | ⟨rfl, -⟩, hid⟩
      · exact absurd hid hne
      · rfl
    · rintro hsome
      cases hsome
      exact ⟨.inr ⟨rfl, hstarts⟩, rfl⟩
  · subst heq
    constructor
    · rintro ⟨⟨-, hne⟩ | ⟨-, hstarts'⟩, hid⟩
      · exact absurd hid hne
      · exact absurd hstarts' hstarts
    · intro hnone
      cases hnone
  · rw [h.timerOf?_eq_some_iff]
    constructor
    · rintro ⟨⟨hmem, -⟩ | ⟨rfl, -⟩, hid⟩
      · exact ⟨hmem, hid⟩
      · exact absurd hid heq
    · rintro ⟨hmem, rfl⟩
      exact ⟨.inl ⟨hmem, Ne.symm heq⟩, rfl⟩

/-- A tick moves the timer of one id on, or ends it. -/
lemma timerOf?_tick (h : ticker.Sound) {timer : Timer α} (ht : timer ∈ ticker.timers) (goOn : Bool)
    (id : String) :
    (ticker.tick timer goOn).timerOf? id
      = if timer.id = id then
          if goOn = true ∧ 1 < timer.remaining then some timer.next else none
        else ticker.timerOf? id := by
  refine Option.ext fun other => ?_
  rw [(h.tick ht goOn).timerOf?_eq_some_iff, h.mem_tick ht]
  have hown : other ∈ ticker.timers ∧ other.generation ≠ timer.generation → other.id ≠ timer.id :=
    fun ⟨ho, hne⟩ hid => hne (congrArg _ (h.eq_of_id ho ht hid))
  split_ifs with heq hgo
  · subst heq
    constructor
    · rintro ⟨hother | ⟨rfl, -⟩, hid⟩
      · exact absurd hid (hown hother)
      · rfl
    · intro hsome
      cases hsome
      exact ⟨.inr ⟨rfl, hgo⟩, rfl⟩
  · subst heq
    constructor
    · rintro ⟨hother | ⟨-, hgo'⟩, hid⟩
      · exact absurd hid (hown hother)
      · exact absurd hgo' hgo
    · intro hnone
      cases hnone
  · rw [h.timerOf?_eq_some_iff]
    constructor
    · rintro ⟨⟨ho, -⟩ | ⟨rfl, -⟩, hid⟩
      · exact ⟨ho, hid⟩
      · exact absurd hid heq
    · rintro ⟨ho, rfl⟩
      exact ⟨.inl ⟨ho, fun hgeneration => heq (by rw [h.eq_of_generation ho ht hgeneration])⟩, rfl⟩

end Sound

/-! ### The ticks that are left -/

/-- Every timer has a tick left. -/
def Live (ticker : Ticker α) : Prop := ∀ timer ∈ ticker.timers, 0 < timer.remaining

lemma ticksLeft_eq (ticker : Ticker α) :
    ticker.ticksLeft = (ticker.timers.map Timer.remaining).sum := by
  rw [ticksLeft, List.sum_eq_foldl, List.foldl_map]

lemma Sound.live_tick (h : ticker.Sound) (hlive : ticker.Live) {timer : Timer α}
    (ht : timer ∈ ticker.timers) (goOn : Bool) : (ticker.tick timer goOn).Live := by
  intro other ho
  obtain ⟨ho, -⟩ | ⟨rfl, -, hremaining⟩ := (h.mem_tick ht).mp ho
  · exact hlive other ho
  · show 0 < timer.remaining - 1
    omega

/-- A tick uses up at least one of the ticks that are left. -/
lemma ticksLeft_tick (hlive : ticker.Live) {timer : Timer α} (ht : timer ∈ ticker.timers)
    (goOn : Bool) : (ticker.tick timer goOn).ticksLeft < ticker.ticksLeft := by
  rw [ticksLeft_eq, ticksLeft_eq, timers_tick, pass]
  dsimp only
  -- Of every timer at most as many ticks are left, and fewer of the one that has ticked.
  have hle : ∀ timers : List (Timer α), ((timers.filterMap fun other =>
      if other.generation = timer.generation then
        if (goOn && 1 < other.remaining) = true then
          some { other with
            deadline := other.deadline + other.interval
            remaining := other.remaining - 1 }
        else none
      else some other).map Timer.remaining).sum ≤ (timers.map Timer.remaining).sum := by
    intro timers
    induction timers with
    | nil => simp
    | cons first rest ih =>
        rw [List.filterMap_cons, List.map_cons, List.sum_cons]
        split_ifs <;> simp only [List.map_cons, List.sum_cons] <;> omega
  unfold Live at hlive
  generalize ticker.timers = timers at hlive ht
  induction timers with
  | nil => simp at ht
  | cons first rest ih =>
      have hrest := hle rest
      rw [List.filterMap_cons, List.map_cons, List.sum_cons]
      obtain rfl | ht := List.mem_cons.mp ht
      · have hpos := hlive timer List.mem_cons_self
        rw [if_pos rfl]
        split_ifs <;> simp only [List.map_cons, List.sum_cons] <;> omega
      · have hlt := ih (fun other ho => hlive other (List.mem_cons_of_mem _ ho)) ht
        split_ifs <;> simp only [List.map_cons, List.sum_cons] <;> omega

/-! ### A stretch of time -/

lemma timers_eq_nil_of_ticksLeft (hlive : ticker.Live) (h : ticker.ticksLeft = 0) :
    ticker.timers = [] := by
  rw [ticksLeft_eq, List.sum_eq_zero_iff] at h
  refine List.eq_nil_iff_forall_not_mem.mpr fun timer ht => ?_
  have hpos := hlive timer ht
  have hzero := h timer.remaining (List.mem_map_of_mem ht)
  omega

/-- The timer that goes off next goes off no later than the others. -/
lemma le_of_next? {timer other : Timer α} (h : ticker.next? = some timer)
    (ho : other ∈ ticker.timers) : timer.wake ≤ other.wake := by
  have hwake : some timer.wake = ticker.nextWake? := by simpa using List.find?_some h
  exact (List.min?_eq_some_iff.mp hwake.symm).2 other.wake (List.mem_map_of_mem ho)

lemma timers_eq_nil_of_next? (h : ticker.next? = none) : ticker.timers = [] := by
  by_contra hne
  obtain ⟨wake, hwake⟩ : ∃ wake, ticker.nextWake? = some wake :=
    Option.isSome_iff_exists.mp (by simp [nextWake?, hne])
  obtain ⟨timer, ht, rfl⟩ := List.mem_map.mp (List.min?_mem hwake)
  have hfind := List.find?_eq_none.mp h timer ht
  simp [hwake] at hfind

section Until

variable {goOn : Nat → Timer α → Bool} {finish : Nat}

lemma ticksUntil_of_none (h : ticker.next? = none) (fuel : Nat) :
    ticksUntil goOn finish fuel ticker = (ticker, []) := by
  cases fuel with
  | zero => rfl
  | succ fuel => rw [ticksUntil, h]

lemma ticksUntil_of_some {timer : Timer α} (h : ticker.next? = some timer) (fuel : Nat) :
    ticksUntil goOn finish (fuel + 1) ticker
      = if timer.wake < finish then
          ((ticksUntil goOn finish fuel (ticker.tick timer (goOn timer.wake timer))).1,
            (timer.wake, timer)
              :: (ticksUntil goOn finish fuel (ticker.tick timer (goOn timer.wake timer))).2)
        else (ticker, []) := by
  rw [ticksUntil, h]

/-- What ids and labels have in common is had by all that ticks and by all that is left. -/
lemma forall_ticksUntil {P : String → α → Prop} {fuel : Nat} {ticker : Ticker α}
    (h : ∀ timer ∈ ticker.timers, P timer.id timer.label) :
    (∀ tick ∈ (ticksUntil goOn finish fuel ticker).2, P tick.2.id tick.2.label)
      ∧ ∀ timer ∈ (ticksUntil goOn finish fuel ticker).1.timers, P timer.id timer.label := by
  induction fuel generalizing ticker with
  | zero => exact ⟨by simp [ticksUntil], h⟩
  | succ fuel ih =>
      cases hnext : ticker.next? with
      | none =>
          rw [ticksUntil_of_none hnext]
          exact ⟨by simp, h⟩
      | some timer =>
          rw [ticksUntil_of_some hnext]
          split_ifs with hwake
          · have hticked : ∀ other ∈ (ticker.tick timer (goOn timer.wake timer)).timers,
                P other.id other.label := by
              intro other ho
              rw [timers_tick] at ho
              obtain ⟨old, hold, hpass⟩ := List.mem_filterMap.mp ho
              have hP := h old hold
              split_ifs at hpass <;> cases hpass <;> exact hP
            obtain ⟨hticks, hleft⟩ := ih hticked
            refine ⟨fun tick htick => ?_, hleft⟩
            obtain rfl | htick := List.mem_cons.mp htick
            · exact h timer (List.mem_of_find?_eq_some hnext)
            · exact hticks tick htick
          · exact ⟨by simp, h⟩

namespace Sound

lemma ticksUntil (h : ticker.Sound) (hlive : ticker.Live) (fuel : Nat) :
    (Ticker.ticksUntil goOn finish fuel ticker).1.Sound
      ∧ (Ticker.ticksUntil goOn finish fuel ticker).1.Live := by
  induction fuel generalizing ticker with
  | zero => exact ⟨h, hlive⟩
  | succ fuel ih =>
      cases hnext : ticker.next? with
      | none =>
          rw [ticksUntil_of_none hnext]
          exact ⟨h, hlive⟩
      | some timer =>
          have ht : timer ∈ ticker.timers := List.mem_of_find?_eq_some hnext
          rw [ticksUntil_of_some hnext]
          split_ifs
          · exact ih (h.tick ht _) (h.live_tick hlive ht _)
          · exact ⟨h, hlive⟩

variable (goOn finish) in
/-- The induction on the fuel of the ticker; the timer of the id has a fuel of its own. -/
lemma ticksUntil_eq (h : ticker.Sound) (hlive : ticker.Live) {fuel : Nat} (own : Nat) (id : String)
    (hfuel : ticker.ticksLeft ≤ fuel)
    (hown : ∀ timer, ticker.timerOf? id = some timer → timer.remaining ≤ own) :
    ((Ticker.ticksUntil goOn finish fuel ticker).2.filter fun tick => tick.2.id = id)
        = ((ticker.timerOf? id).map (Timer.ticks goOn finish own)).getD []
      ∧ (Ticker.ticksUntil goOn finish fuel ticker).1.timerOf? id
        = (ticker.timerOf? id).bind (Timer.left goOn finish own) := by
  induction fuel generalizing ticker own with
  | zero =>
      have hnil := timers_eq_nil_of_ticksLeft hlive (Nat.le_zero.mp hfuel)
      simp [Ticker.ticksUntil, timerOf?, hnil]
  | succ fuel ih =>
      cases hnext : ticker.next? with
      | none => simp [ticksUntil_of_none hnext, timerOf?, timers_eq_nil_of_next? hnext]
      | some timer =>
          have ht : timer ∈ ticker.timers := List.mem_of_find?_eq_some hnext
          rw [ticksUntil_of_some hnext]
          by_cases hwake : timer.wake < finish
          · have hspent := ticksLeft_tick hlive ht (goOn timer.wake timer)
            have htick := h.timerOf?_tick ht (goOn timer.wake timer) id
            have hrest := fun own' => ih (h.tick ht (goOn timer.wake timer))
              (h.live_tick hlive ht _) own' (by omega)
            simp only [if_pos hwake]
            by_cases hid : timer.id = id
            · -- The timer of the id itself: its own fuel goes down as well.
              have hsome : ticker.timerOf? id = some timer := h.timerOf?_eq_some_iff.mpr ⟨ht, hid⟩
              have hpos := hlive timer ht
              have hle := hown timer hsome
              obtain ⟨own, rfl⟩ : ∃ own', own = own' + 1 := ⟨own - 1, by omega⟩
              rw [if_pos hid] at htick
              obtain ⟨hticks, hleft⟩ := hrest own fun other ho => by
                rw [htick] at ho
                split_ifs at ho
                cases ho
                show timer.remaining - 1 ≤ own
                omega
              rw [List.filter_cons_of_pos (by simpa using hid), hticks, hleft, htick, hsome]
              simp only [Option.map_some, Option.getD_some, Option.bind_some, Timer.ticks,
                Timer.left, if_pos hwake]
              split_ifs <;> simp
            · rw [if_neg hid] at htick
              obtain ⟨hticks, hleft⟩ := hrest own fun other ho => hown other (htick ▸ ho)
              rw [List.filter_cons_of_neg (by simpa using hid), hticks, hleft, htick]
              exact ⟨rfl, rfl⟩
          · -- Nothing is due: the others go off even later.
            simp only [if_neg hwake]
            cases hsome : ticker.timerOf? id with
            | none => simp
            | some other =>
                have ho := (h.timerOf?_eq_some_iff.mp hsome).1
                have hlate : ¬other.wake < finish := by
                  have hle := le_of_next? hnext ho
                  omega
                have hpos := hlive other ho
                have hle := hown other hsome
                obtain ⟨own, rfl⟩ : ∃ own', own = own' + 1 := ⟨own - 1, by omega⟩
                simp [Timer.ticks, Timer.left, hlate]

/-- **A stretch of time, seen from one id.**  The ticks are those that the timer of the id has by
itself, and what is left is what it leaves by itself. -/
theorem runUntil_eq (h : ticker.Sound) (hlive : ticker.Live) (id : String) :
    ((runUntil goOn finish ticker).2.filter fun tick => tick.2.id = id)
        = ((ticker.timerOf? id).map fun timer =>
          timer.ticks goOn finish timer.remaining).getD []
      ∧ (runUntil goOn finish ticker).1.timerOf? id
        = (ticker.timerOf? id).bind fun timer => timer.left goOn finish timer.remaining := by
  have hmain := fun own => h.ticksUntil_eq goOn finish hlive own id le_rfl
  rw [runUntil]
  cases hsome : ticker.timerOf? id with
  | none =>
      have hnone := hmain 0 (by simp [hsome])
      rw [hsome] at hnone
      exact hnone
  | some timer =>
      have hown := hmain timer.remaining (by simp [hsome])
      rw [hsome] at hown
      exact hown

end Sound

end Until

end Ticker

end Componentry

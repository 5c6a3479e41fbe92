import Mathlib.Tactic
import Componentry.Proofs.Keyed
import Componentry.Ticker
/-!
# Timers and the ids they hold

In a ticker that has come about by starts, stops and ticks every timer holds its id, so no two timers
have the same one (`Ticker.Sound`).  A start therefore replaces the timer of its id, be there one,
and leaves all others alone (`Ticker.Sound.mem_start`), and a tick moves one timer on and leaves all
others alone (`Ticker.Sound.mem_tick`).
-/

namespace Componentry

/-- A timer after one tick. -/
def Timer.next {α : Type} (timer : Timer α) : Timer α :=
  { timer with deadline := timer.deadline + timer.interval, remaining := timer.remaining - 1 }

namespace Ticker

variable {α : Type} {ticker : Ticker α}

/-- Every timer holds its id, every generation holds one id, and those to come hold none. -/
structure Sound (ticker : Ticker α) : Prop where
  held : ∀ timer ∈ ticker.timers, ticker.holders.lookup timer.id = some timer.generation
  inj : ∀ id other generation, ticker.holders.lookup id = some generation →
    ticker.holders.lookup other = some generation → id = other
  lt : ∀ id generation, ticker.holders.lookup id = some generation →
    generation < ticker.generations
  keys : ticker.holders.keys.Nodup
  nodup : (ticker.timers.map Timer.generation).Nodup

lemma sound_empty : (({} : Ticker α)).Sound := by
  constructor <;> simp [Keyed.keys]

lemma sound_clear (ticker : Ticker α) : ticker.clear.Sound := by
  constructor <;> simp [Ticker.clear, Keyed.keys]

lemma generations_stop (ticker : Ticker α) (id : String) :
    (ticker.stop id).generations = ticker.generations := by
  rw [stop]
  split <;> rfl

/-- The ids that a stop leaves. -/
lemma lookup_holders_stop (h : ticker.holders.keys.Nodup) (id other : String) :
    (ticker.stop id).holders.lookup other
      = if id = other then none else ticker.holders.lookup other := by
  rw [Ticker.stop]
  cases hid : ticker.holders.lookup id with
  | none =>
      split_ifs with heq
      · rw [← heq, hid]
      · rfl
  | some generation => exact Keyed.lookup_erase h id other

lemma nodup_holders_stop (h : ticker.holders.keys.Nodup) (id : String) :
    (ticker.stop id).holders.keys.Nodup := by
  rw [Ticker.stop]
  split
  · exact h
  · exact Keyed.nodup_keys_erase h _

/-- The timer that is started. -/
def started (ticker : Ticker α) (now : Nat) (id : String) (label : α)
    (initial interval limit : Nat) : Timer α where
  id
  generation := ticker.generations
  label
  deadline := roundUp (1000 * now + initial)
  interval
  remaining := limit

lemma start_of_pos {limit : Nat} (hlimit : limit ≠ 0) (now : Nat) (silent : Bool) (id : String)
    (label : α) (initial interval : Nat) :
    ticker.start now silent id label initial interval limit
      = { holders := (ticker.stop id).holders.insert id ticker.generations
          timers := (ticker.stop id).timers
            ++ if silent = true ∨ interval = 0 then []
              else [started ticker now id label initial interval limit]
          generations := ticker.generations + 1 } := by
  rw [start]
  simp only [if_neg hlimit, generations_stop, Bool.or_eq_true, decide_eq_true_eq]
  split_ifs
  · rw [List.append_nil]
  · rfl

lemma start_of_zero (now : Nat) (silent : Bool) (id : String) (label : α) (initial interval : Nat) :
    ticker.start now silent id label initial interval 0 = ticker.stop id := rfl

/-- The timers that are left after a tick keep their order and their generations. -/
lemma generations_pass (ticker : Ticker α) (generation : Nat) (goOn : Bool) :
    ((ticker.pass generation goOn).timers.map Timer.generation).Sublist
      (ticker.timers.map Timer.generation) := by
  rw [pass]
  dsimp only
  induction ticker.timers with
  | nil => exact .slnil
  | cons first rest ih =>
      rw [List.filterMap_cons]
      split_ifs
      · exact ih.cons_cons _
      · exact ih.cons _
      · exact ih.cons_cons _

lemma timers_tick (ticker : Ticker α) (timer : Timer α) (goOn : Bool) :
    (ticker.tick timer goOn).timers = (ticker.pass timer.generation goOn).timers := by
  rw [tick]
  split_ifs
  · rfl
  · rw [retire]
    split_ifs <;> rfl

lemma generations_tick (ticker : Ticker α) (timer : Timer α) (goOn : Bool) :
    (ticker.tick timer goOn).generations = ticker.generations := by
  rw [tick]
  split_ifs
  · rfl
  · rw [retire]
    split_ifs <;> rfl

/-! ### Labels -/

/-- A timer was there before, or it has just been started. -/
lemma mem_start {now initial interval limit : Nat} {silent : Bool} {id : String} {label : α}
    {timer : Timer α}
    (h : timer ∈ (ticker.start now silent id label initial interval limit).timers) :
    timer ∈ ticker.timers ∨ timer.label = label := by
  have hstop : ∀ timer ∈ (ticker.stop id).timers, timer ∈ ticker.timers := by
    intro timer ht
    rw [stop] at ht
    split at ht
    · exact ht
    · exact List.mem_of_mem_filter ht
  by_cases hlimit : limit = 0
  · rw [hlimit, start_of_zero] at h
    exact .inl (hstop timer h)
  · rw [start_of_pos hlimit] at h
    obtain h | h := List.mem_append.mp h
    · exact .inl (hstop timer h)
    · split_ifs at h
      · cases h
      · rw [List.mem_singleton.mp h]
        exact .inr rfl

/-- A tick leaves timers with labels that were there before. -/
lemma exists_of_mem_tick {timer other : Timer α} {goOn : Bool}
    (h : other ∈ (ticker.tick timer goOn).timers) :
    ∃ old ∈ ticker.timers, old.label = other.label := by
  rw [timers_tick] at h
  obtain ⟨old, hold, hpass⟩ := List.mem_filterMap.mp h
  refine ⟨old, hold, ?_⟩
  split_ifs at hpass <;> cases hpass <;> rfl

namespace Sound

/-- The timer of a generation. -/
lemma eq_of_generation (h : ticker.Sound) {timer other : Timer α} (ht : timer ∈ ticker.timers)
    (ho : other ∈ ticker.timers) (heq : timer.generation = other.generation) : timer = other :=
  List.inj_on_of_nodup_map h.nodup ht ho heq

/-- Two timers of one id are the same. -/
lemma eq_of_id (h : ticker.Sound) {timer other : Timer α} (ht : timer ∈ ticker.timers)
    (ho : other ∈ ticker.timers) (hid : timer.id = other.id) : timer = other := by
  have hheld := h.held timer ht
  rw [hid, h.held other ho, Option.some.injEq] at hheld
  exact h.eq_of_generation ht ho hheld.symm

lemma timer?_eq (h : ticker.Sound) {timer : Timer α} (ht : timer ∈ ticker.timers) :
    ticker.timer? timer.generation = some timer := by
  rw [timer?]
  cases hfind : ticker.timers.find? fun other => other.generation = timer.generation with
  | none => simpa using List.find?_eq_none.mp hfind timer ht
  | some other =>
      have heq : other.generation = timer.generation := by simpa using List.find?_some hfind
      rw [h.eq_of_generation (List.mem_of_find?_eq_some hfind) ht heq]

/-! ### Stops and starts -/

/-- What a stop leaves: the timers of other ids. -/
lemma timers_stop (h : ticker.Sound) (id : String) :
    (ticker.stop id).timers = ticker.timers.filter fun timer => timer.id ≠ id := by
  rw [Ticker.stop]
  cases hid : ticker.holders.lookup id with
  | none =>
      refine (List.filter_eq_self.mpr fun timer ht => ?_).symm
      have hheld := h.held timer ht
      have hne : timer.id ≠ id := by
        rintro rfl
        rw [hid] at hheld
        cases hheld
      simpa using hne
  | some generation =>
      refine List.filter_congr fun timer ht => ?_
      have hheld := h.held timer ht
      have hiff : timer.generation = generation ↔ timer.id = id := by
        constructor
        · rintro rfl
          exact h.inj _ _ _ hheld hid
        · rintro rfl
          rw [hid, Option.some.injEq] at hheld
          exact hheld.symm
      simp [hiff]

lemma mem_stop (h : ticker.Sound) {id : String} {timer : Timer α} :
    timer ∈ (ticker.stop id).timers ↔ timer ∈ ticker.timers ∧ timer.id ≠ id := by
  rw [h.timers_stop, List.mem_filter, decide_eq_true_eq]

/-- The ids that a stop leaves. -/
lemma lookup_stop (h : ticker.Sound) (id other : String) :
    (ticker.stop id).holders.lookup other
      = if id = other then none else ticker.holders.lookup other :=
  lookup_holders_stop h.keys id other

lemma stop (h : ticker.Sound) (id : String) : (ticker.stop id).Sound where
  held timer ht := by
    obtain ⟨hmem, hne⟩ := h.mem_stop.mp ht
    rw [h.lookup_stop, if_neg hne.symm, h.held timer hmem]
  inj first second generation hfirst hsecond := by
    rw [h.lookup_stop] at hfirst hsecond
    split_ifs at hfirst hsecond
    exact h.inj first second generation hfirst hsecond
  lt other generation hother := by
    rw [h.lookup_stop] at hother
    rw [generations_stop]
    split_ifs at hother
    exact h.lt other generation hother
  keys := nodup_holders_stop h.keys id
  nodup := by
    rw [h.timers_stop]
    exact h.nodup.sublist (List.filter_sublist.map Timer.generation)

section Start

variable {now : Nat} {silent : Bool} {id : String} {label : α} {initial interval limit : Nat}

/-- **What a start leaves**: the timers of other ids, and the one that it starts. -/
lemma mem_start (h : ticker.Sound) {timer : Timer α} :
    timer ∈ (ticker.start now silent id label initial interval limit).timers
      ↔ (timer ∈ ticker.timers ∧ timer.id ≠ id)
        ∨ timer = started ticker now id label initial interval limit
          ∧ limit ≠ 0 ∧ silent = false ∧ interval ≠ 0 := by
  by_cases hlimit : limit = 0
  · subst hlimit
    rw [start_of_zero, h.mem_stop]
    simp
  · rw [start_of_pos hlimit, List.mem_append, h.mem_stop]
    split_ifs with hsilent
    · obtain hsilent | hsilent := hsilent <;> simp [hsilent]
    · rw [not_or, Bool.not_eq_true] at hsilent
      simp [hlimit, hsilent]

/-- The id of a start is held by what it starts, and the others as before. -/
lemma lookup_start (h : ticker.Sound) (hlimit : limit ≠ 0) (other : String) :
    (ticker.start now silent id label initial interval limit).holders.lookup other
      = if id = other then some ticker.generations else ticker.holders.lookup other := by
  rw [start_of_pos hlimit]
  dsimp only
  rw [Keyed.lookup_insert, h.lookup_stop]
  split_ifs <;> rfl

lemma start (h : ticker.Sound) :
    (ticker.start now silent id label initial interval limit).Sound := by
  by_cases hlimit : limit = 0
  · subst hlimit
    exact h.stop id
  refine ⟨fun timer ht => ?_, fun first second generation hfirst hsecond => ?_,
    fun other generation hother => ?_, ?_, ?_⟩
  · rw [h.lookup_start hlimit]
    obtain ⟨hmem, hne⟩ | ⟨rfl, -⟩ := h.mem_start.mp ht
    · rw [if_neg hne.symm, h.held timer hmem]
    · exact if_pos rfl
  · -- The new generation is held by nothing else.
    rw [h.lookup_start hlimit] at hfirst hsecond
    split_ifs at hfirst hsecond with hf hs hs
    · exact hf.symm.trans hs
    · cases hfirst
      exact absurd (h.lt second _ hsecond) (lt_irrefl _)
    · cases hsecond
      exact absurd (h.lt first _ hfirst) (lt_irrefl _)
    · exact h.inj first second generation hfirst hsecond
  · rw [h.lookup_start hlimit] at hother
    rw [start_of_pos hlimit]
    split_ifs at hother with heq
    · cases hother
      exact Nat.lt_succ_self _
    · exact (h.lt other generation hother).trans (Nat.lt_succ_self _)
  · rw [start_of_pos hlimit]
    exact Keyed.nodup_keys_insert (h.stop id).keys id _
  · rw [start_of_pos hlimit, List.map_append]
    refine (h.stop id).nodup.append (by split_ifs <;> simp) fun generation hmem hnew => ?_
    obtain ⟨timer, ht, rfl⟩ := List.mem_map.mp hmem
    have hlt := h.lt _ _ (h.held timer (h.mem_stop.mp ht).1)
    split_ifs at hnew
    · simp at hnew
    · have heq : timer.generation = ticker.generations := by simpa [started] using hnew
      omega

end Start

/-! ### Ticks -/

/-- What a tick leaves: the other timers, and the next tick of the one that goes on. -/
lemma mem_pass (h : ticker.Sound) {timer other : Timer α} (ht : timer ∈ ticker.timers)
    (goOn : Bool) :
    other ∈ (ticker.pass timer.generation goOn).timers
      ↔ (other ∈ ticker.timers ∧ other.generation ≠ timer.generation)
        ∨ other = timer.next ∧ goOn = true ∧ 1 < timer.remaining := by
  simp only [pass, List.mem_filterMap]
  constructor
  · rintro ⟨old, hold, hpass⟩
    split_ifs at hpass with hgeneration hgo
    · obtain rfl := h.eq_of_generation hold ht hgeneration
      refine .inr ⟨(Option.some.inj hpass).symm, by simpa using hgo⟩
    · obtain rfl := Option.some.inj hpass
      exact .inl ⟨hold, hgeneration⟩
  · rintro (⟨hmem, hne⟩ | ⟨rfl, hgo, hremaining⟩)
    · exact ⟨other, hmem, if_neg hne⟩
    · refine ⟨timer, ht, ?_⟩
      rw [if_pos rfl, if_pos (by simp [hgo, hremaining])]
      rfl

/-- **What a tick leaves**: the other timers, and the next tick of the one that goes on. -/
lemma mem_tick (h : ticker.Sound) {timer other : Timer α} (ht : timer ∈ ticker.timers)
    {goOn : Bool} :
    other ∈ (ticker.tick timer goOn).timers
      ↔ (other ∈ ticker.timers ∧ other.generation ≠ timer.generation)
        ∨ other = timer.next ∧ goOn = true ∧ 1 < timer.remaining := by
  rw [timers_tick, h.mem_pass ht]

/-- A timer is there after its tick if it goes on. -/
lemma isSome_timer?_pass (h : ticker.Sound) {timer : Timer α} (ht : timer ∈ ticker.timers)
    (goOn : Bool) :
    ((ticker.pass timer.generation goOn).timer? timer.generation).isSome
      ↔ goOn = true ∧ 1 < timer.remaining := by
  rw [timer?, List.find?_isSome]
  simp only [decide_eq_true_eq]
  constructor
  · rintro ⟨other, hother, hgeneration⟩
    obtain ⟨-, hne⟩ | ⟨-, hgo⟩ := (h.mem_pass ht goOn).mp hother
    · exact absurd hgeneration hne
    · exact hgo
  · exact fun hgo => ⟨timer.next, (h.mem_pass ht goOn).mpr (.inr ⟨rfl, hgo⟩), rfl⟩

/-- A tick gives up the id of its timer if the timer does not go on. -/
lemma holders_tick (h : ticker.Sound) {timer : Timer α} (ht : timer ∈ ticker.timers)
    (goOn : Bool) :
    (ticker.tick timer goOn).holders = ticker.holders
      ∨ (ticker.tick timer goOn).holders = ticker.holders.erase timer.id
        ∧ ¬ (goOn = true ∧ 1 < timer.remaining) := by
  rw [tick]
  simp only [h.isSome_timer?_pass ht]
  split_ifs with hgo
  · exact .inl rfl
  · rw [retire]
    split_ifs
    · exact .inr ⟨rfl, hgo⟩
    · exact .inl rfl

lemma lookup_tick (h : ticker.Sound) {timer : Timer α} (ht : timer ∈ ticker.timers) (goOn : Bool)
    {id : String} {generation : Nat}
    (hid : (ticker.tick timer goOn).holders.lookup id = some generation) :
    ticker.holders.lookup id = some generation := by
  obtain heq | ⟨heq, -⟩ := h.holders_tick ht goOn <;> rw [heq] at hid
  · exact hid
  · rw [Keyed.lookup_erase h.keys] at hid
    split_ifs at hid
    exact hid

lemma tick (h : ticker.Sound) {timer : Timer α} (ht : timer ∈ ticker.timers) (goOn : Bool) :
    (ticker.tick timer goOn).Sound where
  held other ho := by
    obtain ⟨hmem, hne⟩ | ⟨rfl, hgo⟩ := (h.mem_tick ht).mp ho
    · have hid : timer.id ≠ other.id := fun heq => hne (congrArg _ (h.eq_of_id hmem ht heq.symm))
      obtain heq | ⟨heq, -⟩ := h.holders_tick ht goOn <;> rw [heq]
      · exact h.held other hmem
      · rw [Keyed.lookup_erase_of_ne _ hid, h.held other hmem]
    · obtain heq | ⟨-, hends⟩ := h.holders_tick ht goOn
      · rw [heq]
        exact h.held timer ht
      · exact absurd hgo hends
  inj first second generation hfirst hsecond :=
    h.inj first second generation (h.lookup_tick ht goOn hfirst) (h.lookup_tick ht goOn hsecond)
  lt id generation hid := by
    rw [generations_tick]
    exact h.lt id generation (h.lookup_tick ht goOn hid)
  keys := by
    obtain heq | ⟨heq, -⟩ := h.holders_tick ht goOn <;> rw [heq]
    · exact h.keys
    · exact Keyed.nodup_keys_erase h.keys _
  nodup := by
    rw [timers_tick]
    exact h.nodup.sublist (generations_pass ticker timer.generation goOn)

end Sound

end Ticker

end Componentry

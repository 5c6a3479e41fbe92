import Mathlib.Data.Set.Card
import Mathlib.Tactic
import Componentry.Proofs.Ticker
/-!
# Timers that outlive their ids

Every timer is worked by a task of its own.  A task ticks as often as it may, and when it has ended
it cleans up, which is to give up its id (`Ticker.retire`).  In between, the id may be stopped and
started again, and then it belongs to another task; and a task that has been stopped may tick on,
and end, before it notices.  A `Crew` is a ticker with every task that was ever spawned.  Its moves
come in any order that the tasks allow, and a task that has noticed that it is stopped makes none.

The id of a timer is held by the task of its latest start until it is stopped, cleared, or cleaned
up by this very task (`Crew.Holds`).  Tasks are told apart by their place among all tasks, and the
ticker tells them apart by their generation: `Crew.Kept` says that the two go together, one move
keeps it (`Crew.Kept.apply`), and so do all (`Crew.kept_run`).  Therefore no clean-up gives up the
id of a later task, and the active ids are those that are held (`Crew.run_active`).
-/

namespace Componentry.Ticker

variable {α : Type}

/-- A task that works a timer. -/
structure Task (α : Type) where
  timer : Timer α
  /-- Whether the task has cleaned up, which is the last that it does. -/
  cleaned : Bool := false

namespace Task

/-- Whether a task may tick: a timer without an interval never does. -/
def mayTick (task : Task α) : Prop := task.timer.interval ≠ 0 ∧ task.timer.remaining ≠ 0

/-- Whether a task has had its last tick and has not cleaned up yet. -/
def isEnding (task : Task α) : Prop := task.timer.remaining = 0 ∧ task.cleaned = false

instance (task : Task α) : Decidable task.mayTick := inferInstanceAs (Decidable (_ ∧ _))

instance (task : Task α) : Decidable task.isEnding := inferInstanceAs (Decidable (_ ∧ _))

/-- What a task is known by: the id and the generation of its timer. -/
def badge (task : Task α) : String × Nat := (task.timer.id, task.timer.generation)

/-- A task after a tick; one that is not to go on has no tick left. -/
def ticked (task : Task α) (goOn : Bool) : Task α :=
  { task with timer := if goOn then task.timer.next else { task.timer with remaining := 0 } }

lemma badge_ticked (task : Task α) (goOn : Bool) : (task.ticked goOn).badge = task.badge := by
  cases goOn <;> rfl

end Task

/-- What can happen to a ticker and its tasks; a task is named by its place among all tasks. -/
inductive Move (α : Type) where
  | start (now : Nat) (id : String) (label : α) (initial interval limit : Nat)
  | stop (id : String)
  | clear
  | tick (place : Nat) (goOn : Bool)
  | cleanUp (place : Nat)

namespace Move

/-- Whether a move spawns a task. -/
def spawns : Move α → Bool
  | .start _ _ _ _ _ limit => limit ≠ 0
  | _ => false

/-- Whether a move takes an id from the task at a place. -/
def frees (id : String) (place : Nat) : Move α → Bool
  | .start _ other _ _ _ _ => other = id
  | .stop other => other = id
  | .clear => true
  | .tick _ _ => false
  | .cleanUp other => other = place

end Move

/-- A ticker, and its tasks in the order in which they were spawned. -/
structure Crew (α : Type) where
  ticker : Ticker α := {}
  tasks : List (Task α) := []

namespace Crew

/-- One move, if the task that makes it may. -/
def apply (crew : Crew α) : Move α → Option (Crew α)
  | .start now id label initial interval limit => some {
      ticker := crew.ticker.start now false id label initial interval limit
      tasks := if limit = 0 then crew.tasks
        else crew.tasks ++ [⟨crew.ticker.started now id label initial interval limit, false⟩] }
  | .stop id => some { crew with ticker := crew.ticker.stop id }
  | .clear => some { crew with ticker := crew.ticker.clear }
  | .tick place goOn => do
    let task ← crew.tasks[place]?
    guard task.mayTick
    return {
      ticker := crew.ticker.pass task.timer.generation goOn
      tasks := crew.tasks.set place (task.ticked goOn) }
  | .cleanUp place => do
    let task ← crew.tasks[place]?
    guard task.isEnding
    return {
      ticker := crew.ticker.retire task.timer.id task.timer.generation
      tasks := crew.tasks.set place { task with cleaned := true } }

/-- Several moves, if each may be made in its turn. -/
def run (crew : Crew α) (moves : List (Move α)) : Option (Crew α) := moves.foldlM apply crew

/-- What the tasks are known by. -/
def badges (crew : Crew α) : List (String × Nat) := crew.tasks.map Task.badge

/-- A tick as the ticker makes it, together with the clean-up, is the tick of a task and, if that
was its last one, the clean-up of the task. -/
theorem tick_then_cleanUp {crew : Crew α} {place : Nat} {task : Task α}
    (hsound : crew.ticker.Sound) (htask : crew.tasks[place]? = some task)
    (htimer : task.timer ∈ crew.ticker.timers) (hmay : task.mayTick) (hcleaned : task.cleaned = false)
    (goOn : Bool) :
    ∃ next, crew.apply (.tick place goOn) = some next
      ∧ (if (task.ticked goOn).isEnding then next.apply (.cleanUp place) else some next).map
          Crew.ticker = some (crew.ticker.tick task.timer goOn) := by
  have hticked : (crew.tasks.set place (task.ticked goOn))[place]? = some (task.ticked goOn) :=
    List.getElem?_set_self (List.getElem?_eq_some_iff.mp htask).1
  have hending : (task.ticked goOn).isEnding ↔ ¬ (goOn = true ∧ 1 < task.timer.remaining) := by
    have hne := hmay.2
    cases goOn with
    | false => simp [Task.isEnding, Task.ticked, hcleaned]
    | true =>
        simp only [Task.isEnding, Task.ticked, Timer.next, hcleaned, if_true, and_true, true_and]
        omega
  refine ⟨{
      ticker := crew.ticker.pass task.timer.generation goOn
      tasks := crew.tasks.set place (task.ticked goOn) }, by simp [apply, htask, hmay, guard], ?_⟩
  rw [Ticker.tick]
  simp only [hsound.isSome_timer?_pass htimer, hending]
  by_cases hgo : goOn = true ∧ 1 < task.timer.remaining
  · rw [if_neg (not_not.mpr hgo), if_pos hgo, Option.map_some]
  · have hid : (task.ticked goOn).timer.id = task.timer.id :=
      congrArg Prod.fst (Task.badge_ticked task goOn)
    have hgeneration : (task.ticked goOn).timer.generation = task.timer.generation :=
      congrArg Prod.snd (Task.badge_ticked task goOn)
    rw [if_pos hgo, if_neg hgo]
    simp [apply, hticked, hending, hgo, guard, hid, hgeneration]

/-- How many tasks some moves spawn. -/
def spawned (moves : List (Move α)) : Nat := moves.countP Move.spawns

/-- Whether the task at a place holds an id after some moves: it was spawned by a start of the id,
and nothing has taken the id from it since. -/
def Holds (moves : List (Move α)) (id : String) (place : Nat) : Prop :=
  ∃ before now label initial interval limit after,
    moves = before ++ .start now id label initial interval limit :: after ∧ limit ≠ 0
      ∧ spawned before = place ∧ ∀ move ∈ after, move.frees id place = false

/-- Whether some task holds an id. -/
def Live (moves : List (Move α)) (id : String) : Prop := ∃ place, Holds moves id place

/-! ### What one more move does to the holders -/

lemma not_holds_nil (id : String) (place : Nat) : ¬ Holds ([] : List (Move α)) id place := by
  rintro ⟨before, now, label, initial, interval, limit, after, h, -⟩
  simp at h

lemma spawned_append_singleton (moves : List (Move α)) (move : Move α) :
    spawned (moves ++ [move]) = spawned moves + if move.spawns then 1 else 0 := by
  rw [spawned, spawned, List.countP_append, List.countP_singleton]

/-- A task holds an id after one more move if it did so before and the move does not take it, or if
the move spawns it. -/
lemma holds_append_singleton {moves : List (Move α)} {move : Move α} {id : String} {place : Nat} :
    Holds (moves ++ [move]) id place
      ↔ (Holds moves id place ∧ move.frees id place = false)
        ∨ ((∃ now label initial interval limit, move = .start now id label initial interval limit
            ∧ limit ≠ 0) ∧ spawned moves = place) := by
  constructor
  · rintro ⟨before, now, label, initial, interval, limit, after, h, hlimit, hplace, hafter⟩
    obtain rfl | ⟨rest, last, rfl⟩ := List.eq_nil_or_concat after
    · obtain ⟨rfl, hmove⟩ := List.append_inj' h rfl
      exact .inr ⟨⟨now, label, initial, interval, limit, by simpa using hmove, hlimit⟩, hplace⟩
    · rw [List.concat_eq_append, ← List.cons_append, ← List.append_assoc] at h
      obtain ⟨hmoves, hlast⟩ := List.append_inj' h rfl
      obtain rfl : move = last := by simpa using hlast
      exact .inl ⟨⟨before, now, label, initial, interval, limit, rest, hmoves, hlimit, hplace,
        fun other hother => hafter other (by simp [hother])⟩, hafter move (by simp)⟩
  · rintro (⟨⟨before, now, label, initial, interval, limit, after, rfl, hlimit, hplace, hafter⟩,
      hmove⟩ | ⟨⟨now, label, initial, interval, limit, rfl, hlimit⟩, hplace⟩)
    · refine ⟨before, now, label, initial, interval, limit, after ++ [move], by simp, hlimit,
        hplace, fun other hother => ?_⟩
      obtain hother | hother := List.mem_append.mp hother
      · exact hafter other hother
      · rw [List.mem_singleton.mp hother, hmove]
    · exact ⟨moves, now, label, initial, interval, limit, [], rfl, hlimit, hplace, by simp⟩

/-- After a start its id is held by the task that it spawns, and the other ids are held as before. -/
lemma holds_start {moves : List (Move α)} {now initial interval limit : Nat} {id other : String}
    {label : α} {place : Nat} (hlimit : limit ≠ 0) :
    Holds (moves ++ [.start now id label initial interval limit]) other place
      ↔ (Holds moves other place ∧ id ≠ other) ∨ id = other ∧ spawned moves = place := by
  rw [holds_append_singleton]
  simp [Move.frees, hlimit]

/-! ### What all moves keep -/

/-- Generations are the places of the tasks, and an id is held in the ticker by the generation of
the task that holds it along the moves. -/
structure Kept (moves : List (Move α)) (crew : Crew α) : Prop where
  keys : crew.ticker.holders.keys.Nodup
  generations : crew.ticker.generations = crew.tasks.length
  spawned : spawned moves = crew.tasks.length
  lookup : ∀ id place, crew.ticker.holders.lookup id = some place ↔ Holds moves id place
  place : ∀ (place : Nat) (badge : String × Nat), crew.badges[place]? = some badge →
    badge.2 = place
  id : ∀ (id : String) (place : Nat), Holds moves id place → crew.badges[place]? = some (id, place)

lemma kept_nil : Kept [] ({} : Crew α) where
  keys := List.nodup_nil
  generations := rfl
  spawned := rfl
  lookup id place := by simp [not_holds_nil]
  place _ _ h := by simp [badges] at h
  id _ _ h := absurd h (not_holds_nil _ _)

namespace Kept

variable {moves : List (Move α)} {crew : Crew α}

/-- A move that spawns no task keeps the invariant if it takes from the holders what it frees. -/
lemma of_frees (h : Kept moves crew) {move : Move α} (hspawns : move.spawns = false)
    {next : Crew α} (hkeys : next.ticker.holders.keys.Nodup)
    (hgenerations : next.ticker.generations = crew.ticker.generations)
    (hbadges : next.badges = crew.badges)
    (hlookup : ∀ id place, next.ticker.holders.lookup id = some place
      ↔ crew.ticker.holders.lookup id = some place ∧ move.frees id place = false) :
    Kept (moves ++ [move]) next := by
  have hlength : next.tasks.length = crew.tasks.length := by
    simpa [badges] using congrArg List.length hbadges
  have hholds : ∀ id place, Holds (moves ++ [move]) id place
      ↔ Holds moves id place ∧ move.frees id place = false := by
    intro id place
    refine holds_append_singleton.trans (or_iff_left ?_)
    rintro ⟨⟨now, label, initial, interval, limit, rfl, hlimit⟩, -⟩
    simp [Move.spawns, hlimit] at hspawns
  exact {
    keys := hkeys
    generations := by rw [hgenerations, h.generations, hlength]
    spawned := by rw [spawned_append_singleton, hspawns, hlength, ← h.spawned]; rfl
    lookup id place := by rw [hlookup, h.lookup, hholds]
    place := by rw [hbadges]; exact h.place
    id id place hid := by rw [hbadges]; exact h.id id place ((hholds id place).mp hid).1 }

/-- The badges stay when the task at a place changes and keeps its badge. -/
lemma map_badge_set {tasks : List (Task α)} {place : Nat} {task next : Task α}
    (htask : tasks[place]? = some task) (hbadge : next.badge = task.badge) :
    (tasks.set place next).map Task.badge = tasks.map Task.badge := by
  have hplace : (tasks.map Task.badge)[place]? = some next.badge := by
    rw [List.getElem?_map, htask, hbadge, Option.map_some]
  obtain ⟨hlt, heq⟩ := List.getElem?_eq_some_iff.mp hplace
  rw [List.map_set, ← heq, List.set_getElem_self]

/-- A task that is stopped, or whose id has another task by now, has nothing to give up. -/
lemma cleanUp (h : Kept moves crew) {place : Nat} {task : Task α}
    (htask : crew.tasks[place]? = some task) :
    Kept (moves ++ [.cleanUp place])
      { ticker := crew.ticker.retire task.timer.id task.timer.generation
        tasks := crew.tasks.set place { task with cleaned := true } } := by
  have hbadge : crew.badges[place]? = some task.badge := by
    rw [badges, List.getElem?_map, htask, Option.map_some]
  have hgeneration : task.timer.generation = place := h.place place task.badge hbadge
  -- Whoever is held by this generation is held by this task.
  have hid : ∀ id, crew.ticker.holders.lookup id = some place → id = task.timer.id := by
    intro id hlookup
    have hother := h.id id place ((h.lookup id place).mp hlookup)
    rw [hbadge, Option.some.injEq] at hother
    exact (congrArg Prod.fst hother).symm
  rw [hgeneration, retire]
  split_ifs with hheld
  · refine h.of_frees rfl (Keyed.nodup_keys_erase h.keys _) rfl (map_badge_set htask rfl)
      fun id other => ?_
    rw [Keyed.lookup_erase h.keys]
    split_ifs with heq
    · subst heq
      simp only [hheld, Option.some.injEq, Move.frees, false_iff, not_and]
      rintro rfl
      simp
    · refine (and_iff_left_of_imp fun hlookup => ?_).symm
      simp only [Move.frees, decide_eq_false_iff_not]
      rintro rfl
      exact heq (hid id hlookup).symm
  · refine h.of_frees rfl h.keys rfl (map_badge_set htask rfl) fun id other => ?_
    refine (and_iff_left_of_imp fun hlookup => ?_).symm
    simp only [Move.frees, decide_eq_false_iff_not]
    rintro rfl
    exact hheld (hid id hlookup ▸ hlookup)

/-- A task that holds an id is there. -/
lemma lt_of_holds (h : Kept moves crew) {id : String} {place : Nat} (hid : Holds moves id place) :
    place < crew.tasks.length := by
  obtain ⟨hlt, -⟩ := List.getElem?_eq_some_iff.mp (h.id id place hid)
  simpa [badges] using hlt

/-- What a start does: its id is held by the task that it spawns. -/
lemma start (h : Kept moves crew) {now initial interval limit : Nat} {id : String} {label : α}
    (hlimit : limit ≠ 0) :
    Kept (moves ++ [.start now id label initial interval limit])
      { ticker := crew.ticker.start now false id label initial interval limit
        tasks := crew.tasks
          ++ [⟨crew.ticker.started now id label initial interval limit, false⟩] } := by
  have hbadges : List.map Task.badge (crew.tasks
      ++ [⟨crew.ticker.started now id label initial interval limit, false⟩])
        = crew.badges ++ [(id, crew.tasks.length)] := by
    rw [List.map_append, ← h.generations]
    rfl
  refine ⟨?_, ?_, ?_, fun other place => ?_, fun place badge => ?_, fun other place => ?_⟩
  · rw [start_of_pos hlimit]
    exact Keyed.nodup_keys_insert (nodup_holders_stop h.keys id) id _
  · rw [start_of_pos hlimit]
    simp [h.generations]
  · rw [spawned_append_singleton, h.spawned]
    simp [Move.spawns, hlimit]
  · rw [start_of_pos hlimit, holds_start hlimit, h.spawned]
    dsimp only
    rw [Keyed.lookup_insert, lookup_holders_stop h.keys, h.generations]
    split_ifs with heq
    · simp [heq]
    · simp [heq, h.lookup]
  · rw [badges, hbadges, List.getElem?_append]
    split_ifs with hplace
    · exact h.place place badge
    · rw [List.getElem?_singleton]
      intro hbadge
      split_ifs at hbadge with hzero
      obtain rfl := Option.some.inj hbadge
      simp only [badges, List.length_map] at hplace hzero ⊢
      omega
  · rw [holds_start hlimit, h.spawned, badges, hbadges]
    rintro (⟨hother, -⟩ | ⟨rfl, rfl⟩)
    · rw [List.getElem?_append_left (by simpa [badges] using h.lt_of_holds hother)]
      exact h.id other place hother
    · simp [badges]

/-- **One move keeps the invariant.** -/
lemma apply (h : Kept moves crew) {move : Move α} {next : Crew α}
    (hnext : crew.apply move = some next) : Kept (moves ++ [move]) next := by
  cases move with
  | start now id label initial interval limit =>
      obtain rfl := Option.some.inj hnext
      by_cases hlimit : limit = 0
      · -- No more is done than to stop the timer of the id.
        subst hlimit
        refine h.of_frees rfl (nodup_holders_stop h.keys id) (generations_stop _ _) rfl
          fun other place => ?_
        rw [start_of_zero, lookup_holders_stop h.keys]
        by_cases heq : id = other <;> simp [heq, Move.frees]
      · rw [if_neg hlimit]
        exact h.start hlimit
  | stop id =>
      obtain rfl := Option.some.inj hnext
      refine h.of_frees rfl (nodup_holders_stop h.keys id) (generations_stop _ _) rfl
        fun other place => ?_
      rw [lookup_holders_stop h.keys]
      by_cases heq : id = other <;> simp [heq, Move.frees]
  | clear =>
      obtain rfl := Option.some.inj hnext
      exact h.of_frees rfl List.nodup_nil rfl rfl fun other place => by
        simp [Ticker.clear, Move.frees]
  | tick place goOn =>
      obtain ⟨task, htask, hguard⟩ := Option.bind_eq_some_iff.mp hnext
      obtain ⟨-, -, hpure⟩ := Option.bind_eq_some_iff.mp hguard
      obtain rfl := Option.some.inj hpure
      exact h.of_frees rfl h.keys rfl (map_badge_set htask (task.badge_ticked goOn))
        fun other place => (and_iff_left rfl).symm
  | cleanUp place =>
      obtain ⟨task, htask, hguard⟩ := Option.bind_eq_some_iff.mp hnext
      obtain ⟨-, -, hpure⟩ := Option.bind_eq_some_iff.mp hguard
      obtain rfl := Option.some.inj hpure
      exact h.cleanUp htask

end Kept

/-- All moves keep the invariant. -/
lemma kept_run {moves : List (Move α)} {crew : Crew α} (h : ({} : Crew α).run moves = some crew) :
    Kept moves crew := by
  induction moves using List.reverseRecOn generalizing crew with
  | nil =>
      obtain rfl := Option.some.inj h
      exact kept_nil
  | append_singleton moves move ih =>
      rw [run, List.foldlM_append] at h
      obtain ⟨before, hbefore, hmove⟩ := Option.bind_eq_some_iff.mp h
      rw [List.foldlM_cons] at hmove
      obtain ⟨next, hnext, hlast⟩ := Option.bind_eq_some_iff.mp hmove
      obtain rfl := Option.some.inj hlast
      exact (ih hbefore).apply hnext

/-- **A task that has ended never deactivates its successor.** In whatever order ids are started,
stopped and cleared and tasks tick and clean up, an id is active exactly when its latest start had a
limit other than zero and it has since been neither stopped nor cleared nor cleaned up by the task
of that start.  There is one entry for an id at most, and as many entries as there are such ids. -/
theorem run_active {moves : List (Move α)} {crew : Crew α}
    (h : ({} : Crew α).run moves = some crew) :
    (∀ id, crew.ticker.isActive id = true ↔ Live moves id)
      ∧ crew.ticker.holders.keys.Nodup
      ∧ (crew.ticker.activeCount : ℕ∞) = {id | Live moves id}.encard := by
  have hkept := kept_run h
  have hactive : ∀ id, crew.ticker.isActive id = true ↔ Live moves id := by
    intro id
    rw [isActive, Keyed.contains, Option.isSome_iff_exists]
    exact exists_congr fun place => hkept.lookup id place
  refine ⟨hactive, hkept.keys, ?_⟩
  have hset : {id | Live moves id} = (crew.ticker.holders.keys.toFinset : Set String) := by
    ext id
    rw [Set.mem_ofPred_eq, ← hactive, List.coe_toFinset, Set.mem_ofPred_eq, isActive, Keyed.contains,
      Option.isSome_iff_ne_none, ne_eq, Keyed.lookup_eq_none_iff, not_not]
  rw [hset, Set.encard_coe_eq_coe_finsetCard, List.toFinset_card_of_nodup hkept.keys, activeCount,
    Keyed.keys, List.length_map]

/-- A timer with one tick ends and is started again before its task cleans up. -/
def overtaken : List (Move Unit) :=
  [.start 0 "poll" () 0 10 1, .tick 0 true, .start 0 "poll" () 0 10 5, .cleanUp 0]

/-- The clean-up of the task that has been overtaken leaves the id to the second task. -/
theorem run_active_overtaken :
    ∃ crew : Crew Unit, ({} : Crew Unit).run overtaken = some crew
      ∧ crew.ticker.isActive "poll" = true ∧ Live overtaken "poll"
      ∧ (crew.ticker.activeCount : ℕ∞) = {id | Live overtaken id}.encard := by
  obtain ⟨crew, hcrew⟩ : ∃ crew, ({} : Crew Unit).run overtaken = some crew := ⟨_, rfl⟩
  obtain ⟨hactive, -, hcount⟩ := run_active hcrew
  have hpoll : crew.ticker.isActive "poll" = true := by
    obtain rfl := Option.some.inj hcrew
    decide
  exact ⟨crew, hcrew, hpoll, (hactive "poll").mp hpoll, hcount⟩

end Crew

end Componentry.Ticker

import Mathlib.Tactic
import Componentry.Proofs.Session.Execution
import Componentry.Proofs.Session.Serving
/-!
# Cascades

An action that has run raises events of its own, and so may set off further actions.  In a *plain*
tree (`Tree.Plain`) this is the only way in which something comes of an event: no action asks for a
load, and none repeats.  If ids are not contested either (`Tree.Ordered`), the events go back to the
action that raises them, and what they set off is bound to it.  Since an action stands behind the
entity that binds it, every event is raised further back in the tree than the one that it comes of
(`Session.Cascading.climbs`).

`Session.Cascading` has what holds of a session all along its run.
-/

namespace Componentry

namespace Tree

variable {t u : Tree}

/-- A tree in which nothing loads and nothing repeats: actions are built-in ones other than `load`
and `refresh`, or have no behaviour. -/
structure Plain (t : Tree) : Prop where
  action : ∀ i e, t.entity? i = some e → ∀ action, e.behaviour.action? = some action →
    action ∈ [Action.alert, Action.modify, Action.set, Action.function]
  once : ∀ i e, t.entity? i = some e → e.repeatDelay = none

lemma SameStructure.plain (h : t.SameStructure u) (ht : t.Plain) : u.Plain := by
  have hframe : ∀ i e, u.entity? i = some e → ∃ e', t.entity? i = some e'
      ∧ e'.behaviour = e.behaviour ∧ e'.repeatDelay = e.repeatDelay := by
    intro i e he
    obtain ⟨e', he', hsame⟩ := h.symm.exists_entity he
    have hbehaviour : e'.frame.behaviour = e.frame.behaviour := by rw [hsame]
    have hrepeat : e'.frame.repeatDelay = e.frame.repeatDelay := by rw [hsame]
    exact ⟨e', he', hbehaviour, hrepeat⟩
  refine ⟨fun i e he action ha => ?_, fun i e he => ?_⟩
  · obtain ⟨e', he', hbehaviour, -⟩ := hframe i e he
    exact ht.action i e' he' action (hbehaviour ▸ ha)
  · obtain ⟨e', he', -, hrepeat⟩ := hframe i e he
    rw [← hrepeat, ht.once i e' he']

lemma Plain.not_repeats (h : t.Plain) (event : Event) (action : Nat) :
    ¬ t.Repeats event action := by
  rintro ⟨run, ⟨index, source, e, -, -, -, -, he, hinterval⟩, -, hne⟩
  rw [h.once _ e he, ite_self] at hinterval
  exact hne hinterval

/-- A plain tree in which every entity is addressed by its id. -/
structure Ordered (t : Tree) : Prop where
  plain : t.Plain
  linked : t.Linked
  sound : t.Sound
  own : ∀ index id, t.idAt? index = some id → t.find? id = some index

/-- An action that an event is served with stands behind the entity that the event comes to. -/
lemma Ordered.lt_of_serves (h : t.Ordered) {event : Event} {run : PlannedRun}
    (hserves : t.Serves event run) : ∃ index, t.find? event.source = some index
      ∧ index < run.action ∧ t.roleAt? run.action = some .action := by
  obtain ⟨index, source, e, hfind, hsource, -, hbound, he, -⟩ := hserves
  refine ⟨index, hfind, ?_, h.linked.roleAt?_of_mem_boundActions hbound⟩
  rw [boundActions, hsource] at hbound
  obtain ⟨b, hb, haction⟩ := List.mem_map.mp hbound
  have hlisted : run.action ∈ source.listed .action :=
    List.mem_map.mpr ⟨b, List.mem_of_mem_filter hb, haction⟩
  exact h.linked.parent_lt _ e he index (h.linked.parent_eq he hsource hlisted (by simp))

end Tree

namespace Session

variable {s : Session} {t : Tree}

/-! ### Nothing loads -/

/-- The built-in actions of a plain tree ask for no load. -/
lemma provider?_of_plain {action : Action}
    (ha : action ∈ [Action.alert, Action.modify, Action.set, Action.function])
    {invocation : Invocation} {effect : Effect} (h : (action invocation).result = .ok effect) :
    effect.provider? = none := by
  simp only [List.mem_cons, List.not_mem_nil, or_false] at ha
  rcases ha with rfl | rfl | rfl | rfl
  · cases h
    rfl
  · simp only [Action.modify, Action.quiet] at h
    split at h <;> cases h
    rfl
  · simp only [Action.set, Action.quiet] at h
    repeat' split at h
    all_goals cases h <;> rfl
  · simp only [Action.function, Action.quiet] at h
    repeat' split at h
    all_goals cases h <;> rfl

/-- An execution in a plain tree accepts no load. -/
lemma ending_load (h : s.tree.Plain) {index : Nat} {e : Entity}
    (he : s.tree.entity? index = some e) (event : Event) : (s.ending e event).load = none := by
  have hcarried := carryOut_tree s (s.verdict e event)
  rw [ending]
  cases hresult : (s.carryOut (s.verdict e event)).2 with
  | error failure => rfl
  | ok effect =>
      rw [hresult] at hcarried
      have hverdict := hcarried.1
      show effect.provider? = none
      rw [verdict] at hverdict
      cases ha : e.behaviour.action? with
      | none =>
          rw [ha] at hverdict
          cases hverdict
          rfl
      | some action =>
          rw [ha] at hverdict
          exact provider?_of_plain (h.action index e he action ha) hverdict

lemma perform_loads (s : Session) (effect : Effect) : (s.perform effect).1.loads = s.loads := by
  cases effect with
  | merge place changes animated =>
      cases place with
      | entity index =>
          simp only [perform, notifyUpdate]
          split
          · split_ifs <;> rfl
          · rfl
      | _ => rfl
  | _ => rfl

lemma carryOut_loads (s : Session) (verdict : Verdict) :
    (s.carryOut verdict).1.loads = s.loads := by
  unfold carryOut
  dsimp only
  cases verdict.result with
  | error failure => rfl
  | ok effect =>
      have hloads := perform_loads { s with reports := s.reports ++ verdict.reports } effect
      dsimp only
      split <;> rename_i hp <;> rw [hp] at hloads <;> exact hloads

lemma execute_loads (h : s.tree.Plain) (index : Nat) (event : Event) :
    (s.execute index event).loads = s.loads := by
  cases he : s.tree.entity? index with
  | none => rw [execute, he]
  | some e =>
      rw [execute_eq he, raiseLifecycle_loads, ending_load h he event]
      exact carryOut_loads s _

lemma proceed_loads (s : Session) (source : String) (event : Event) (steps : List PlannedStep) :
    (s.proceed source event steps).loads = s.loads := by
  rw [proceed_eq, endTurn_loads, recordAll]

lemma deliver_loads (s : Session) (source : String) (event : Event) :
    (s.deliver source event).loads = s.loads := by
  rw [deliver]
  split
  · rfl
  · rfl
  · exact proceed_loads _ source event _

/-- In a plain tree a lane accepts no load, unless it repeats something. -/
lemma advanceLane_loads (h : s.tree.Plain) {source : String}
    (honce : ∀ action event, .refire action event ∉ (s.lane source).queue) :
    (s.advanceLane source).loads = s.loads := by
  rw [advanceLane]
  cases (s.lane source).work with
  | some delivery =>
      dsimp only
      split_ifs
      · rfl
      · rw [runNext, proceed_loads, (scheduleRepeat_kept _ _ _).2.2, execute_loads h]
      · rfl
  | none =>
      cases hqueue : (s.lane source).queue with
      | nil => rfl
      | cons message queue =>
          dsimp only
          split_ifs
          · rfl
          · cases message with
            | deliver event => exact deliver_loads _ source event
            | refire action event => exact absurd (by simp [hqueue]) (honce action event)

/-! ### Along a run -/

/-- What holds of a session all along its run on a tree. -/
structure Cascading (t : Tree) (s : Session) : Prop where
  tree : t.SameStructure s.tree
  served : s.Served
  sourced : s.Sourced
  numbered : s.Numbered
  keys : s.lanes.keys.Nodup

namespace Cascading

lemma apply (h : s.Cascading t) (ht : t.Ordered) (m : Move) : (s.apply m).Cascading t where
  tree := h.tree.trans (s.step_apply m).tree
  served := h.served.apply m
  sourced := h.sourced.apply (h.tree.sound ht.sound) m
  numbered := (s.step_apply m).numbered h.numbered
  keys := keys_apply h.keys m

lemma run (h : s.Cascading t) (ht : t.Ordered) (moves : List Move) :
    (s.run moves).Cascading t := by
  induction moves generalizing s with
  | nil => exact h
  | cons m moves ih => exact ih (h.apply ht m)

/-- No timer is running. -/
lemma timers_eq_nil (h : s.Cascading t) (ht : t.Ordered) : s.ticker.timers = [] := by
  refine List.eq_nil_iff_forall_not_mem.mpr fun timer htimer => ?_
  exact ht.plain.not_repeats _ _ (h.tree.symm.repeats (h.served.timer timer htimer))

/-- No repetition is waiting. -/
lemma refire_not_mem (h : s.Cascading t) (ht : t.Ordered) (source : String) (action : Nat)
    (event : Event) : .refire action event ∉ (s.lane source).queue := fun hmem =>
  ht.plain.not_repeats _ _ (h.tree.symm.repeats (h.served.refire source action event hmem))

lemma loads_lane (h : s.Cascading t) (ht : t.Ordered) (source : String) :
    (s.apply (.advance (.lane source))).loads = s.loads :=
  advanceLane_loads (h.tree.plain ht.plain) (h.refire_not_mem ht source)

/-- A lane that has something to do is that of an entity. -/
lemma found_of_weight (h : s.Cascading t) (ht : t.Ordered) {source : String}
    (hw : (s.lane source).weight ≠ 0) : ∃ index, t.find? source = some index := by
  cases hwork : (s.lane source).work with
  | some delivery =>
      have hserves := h.served.work source delivery hwork _ List.mem_cons_self
      obtain ⟨index, hfind, -⟩ := ht.lt_of_serves (h.tree.symm.serves hserves)
      rw [h.sourced.work source delivery hwork] at hfind
      exact ⟨index, hfind⟩
  | none =>
      obtain ⟨message, hmem⟩ : ∃ message, message ∈ (s.lane source).queue := by
        refine List.exists_mem_of_ne_nil _ fun hqueue => hw ?_
        simp [Lane.weight, hwork, hqueue]
      cases message with
      | deliver event =>
          have hfound := h.sourced.found source event hmem
          rw [h.tree.find?_eq] at hfound
          exact Option.isSome_iff_exists.mp hfound
      | refire action event => exact absurd hmem (h.refire_not_mem ht source action event)

/-- What an action raises goes back to it. -/
lemma post_of_completion (h : s.Cascading t) (ht : t.Ordered) {c : Completion}
    {post : String × Message} (hpost : post ∈ s.messagesOf c) :
    t.find? post.1 = some c.index ∧ post.2.event.source = post.1 := by
  rw [messagesOf] at hpost
  split at hpost
  · simp at hpost
  · rename_i e he
    split_ifs at hpost
    · simp at hpost
    · obtain ⟨event, -, rfl⟩ := List.mem_map.mp hpost
      have hid : t.idAt? c.index = some e.id := by
        rw [← h.tree.idAt?_eq, Tree.idAt?_of_entity? he]
      exact ⟨ht.own _ _ hid, rfl⟩

/-- **Cascades climb**: every event that a lane raises comes from an action that stands behind the
entity of the lane. -/
theorem climbs (h : s.Cascading t) (ht : t.Ordered) {source : String} {post : String × Message}
    (hpost : post ∈ s.posted (.advance (.lane source))) :
    ∃ index action, t.find? source = some index ∧ t.find? post.1 = some action ∧ index < action
      ∧ t.roleAt? action = some .action ∧ post.2.event.source = post.1 := by
  obtain ⟨c, hc, hmessage⟩ : ∃ c ∈ s.completions (.advance (.lane source)),
      post ∈ s.messagesOf c := by
    have hposted : s.posted (.advance (.lane source))
        = if s.closed then [] else s.postsOf (s.completions (.advance (.lane source))) := rfl
    rw [hposted] at hpost
    split_ifs at hpost
    · simp at hpost
    · exact List.mem_flatMap.mp hpost
  obtain ⟨hfind, hsource⟩ := h.post_of_completion ht hmessage
  cases hturn : s.turn source with
  | none => simp [completions, hturn] at hc
  | some turn =>
      rw [completions, hturn] at hc
      obtain ⟨event, run, hserves, hindex, rfl⟩ := h.served.completion h.sourced hturn hc
      obtain ⟨index, hfound, hlt, hrole⟩ := ht.lt_of_serves (h.tree.symm.serves hserves)
      rw [hindex] at hlt hrole
      exact ⟨index, c.index, hfound, hfind, hlt, hrole, hsource⟩

end Cascading

end Session

end Componentry

import Mathlib.Tactic
import Componentry.Proofs.Session.Run
/-!
# What an execution changes in the tree

An action decides without touching anything, and the session carries its effect out in one place.
So an execution that fails leaves the tree as it was but for the state of the action, and one that
succeeds has merged attributes into one place at most (`execute_tree`).  `Tree.Touches` says what
may be different after it: the state of one entity, and the attributes of one place.

`Entity.IsStandard` singles out the entities that run one of the built-in actions, or none.
Among those only `modify` and `set` merge, and into the place that the declared target turns out to
be, be it the action itself (`Session.Acts`, `execute_acts`).  For a run this means that the
structure of the tree is the one that the build has left.
-/

namespace Componentry

/-- The place that an effect merges attributes into. -/
def Effect.place? : Effect → Option Place
  | .merge place _ _ => some place
  | .none | .alert _ | .redraw _ | .call _ | .load _ => Option.none

/-- An entity without an action, or with one of the built-in actions. -/
def Entity.IsStandard (e : Entity) : Prop :=
  ∀ action, e.behaviour.action? = some action → action ∈ Action.builtins.map Prod.snd

/-- Whether an entity runs one of the two actions that merge attributes into their target. -/
def Entity.Merges (e : Entity) : Prop :=
  e.behaviour.action? = some Action.modify ∨ e.behaviour.action? = some Action.set

namespace Tree

/-- A tree that differs from another in the state of one entity, which is given, and in the
attributes of one place. -/
structure Touches (t : Tree) (index : Nat) (state : LifecycleState) (place : Option Place)
    (u : Tree) : Prop where
  structured : t.SameStructure u
  entity : ∀ i e, t.entity? i = some e → ∃ attributes,
    u.entity? i = some { e with attributes, state := if i = index then state else e.state }
      ∧ (place ≠ some (.entity i) → attributes = e.attributes)
  app : place ≠ some .app → u.app = t.app
  session : place ≠ some .session → u.session = t.session

variable {t : Tree}

/-- Setting the state of an entity. -/
lemma touches_modify (t : Tree) (index : Nat) (state : LifecycleState) :
    t.Touches index state none (t.modify index fun e => { e with state }) where
  structured := .modify t index fun _ => rfl
  entity i e he := by
    refine ⟨e.attributes, ?_, fun _ => rfl⟩
    rw [entity?_modify, he]
    by_cases hi : i = index
    · simp [hi]
    · simp [hi, Ne.symm hi]
  app _ := rfl
  session _ := rfl

/-- Merging attributes into a place changes no entity but the place, and of that the attributes. -/
lemma entity?_merge (t : Tree) (place : Place) (changes : Attributes) {i : Nat} {e : Entity}
    (he : t.entity? i = some e) : ∃ attributes,
      (t.merge place changes).entity? i = some { e with attributes }
        ∧ (place ≠ .entity i → attributes = e.attributes) := by
  cases place with
  | app => exact ⟨e.attributes, he, fun _ => rfl⟩
  | session => exact ⟨e.attributes, he, fun _ => rfl⟩
  | entity target =>
      by_cases hi : target = i
      · subst hi
        rw [merge, entity?_modify_self, he]
        exact ⟨_, rfl, fun hne => absurd rfl hne⟩
      · rw [merge, entity?_modify_of_ne _ _ hi, he]
        exact ⟨e.attributes, rfl, fun _ => rfl⟩

/-- Merging attributes into a place and then setting the state of an entity, which may be that
place itself. -/
lemma touches_merge (t : Tree) (place : Place) (changes : Attributes) (index : Nat)
    (state : LifecycleState) : t.Touches index state (some place)
      ((t.merge place changes).modify index fun e => { e with state }) where
  structured := (SameStructure.merge t place changes).trans (.modify _ index fun _ => rfl)
  entity i e he := by
    obtain ⟨merged, hmerged, hsame⟩ := t.entity?_merge place changes he
    obtain ⟨attributes, hafter, hkept⟩ :=
      (touches_modify (t.merge place changes) index state).entity i _ hmerged
    exact ⟨attributes, hafter, fun hne =>
      (hkept (by simp)).trans (hsame fun heq => hne (congrArg some heq))⟩
  app hne := by cases place <;> first | rfl | exact absurd rfl hne
  session hne := by cases place <;> first | rfl | exact absurd rfl hne

end Tree

namespace Session

variable {s : Session}

/-! ### Carrying an effect out -/

/-- Carrying an effect out changes the tree by what it merges. -/
lemma perform_tree (s : Session) (effect : Effect) :
    (s.perform effect).1.tree = match effect with
      | .merge place changes _ => s.tree.merge place changes
      | _ => s.tree := by
  cases effect with
  | merge place changes animated =>
      cases place with
      | entity index =>
          simp only [perform, notifyUpdate]
          split
          · split_ifs <;> rfl
          · rfl
      | _ => rfl
  | _ => rfl

/-- The host refuses calls only: what merges attributes does not fail. -/
lemma perform_merge (s : Session) (place : Place) (changes : Attributes) (animated : Bool) :
    (s.perform (.merge place changes animated)).2 = none := by
  cases place <;> rfl

/-- The tree after a verdict has been given effect: a failure leaves it alone, and a success has
merged what the effect says. -/
lemma carryOut_tree (s : Session) (verdict : Verdict) :
    match (s.carryOut verdict).2 with
    | .error _ => (s.carryOut verdict).1.tree = s.tree
    | .ok effect => verdict.result = .ok effect
        ∧ (s.carryOut verdict).1.tree = match effect with
          | .merge place changes _ => s.tree.merge place changes
          | _ => s.tree := by
  unfold carryOut
  dsimp only
  cases hresult : verdict.result with
  | error failure => rfl
  | ok effect =>
      have htree := perform_tree { s with reports := s.reports ++ verdict.reports } effect
      have hmerge := perform_merge { s with reports := s.reports ++ verdict.reports }
      dsimp only
      rcases hp : perform { s with reports := s.reports ++ verdict.reports } effect with ⟨t, refusal⟩
      rw [hp] at htree
      cases refusal with
      | none => exact ⟨rfl, htree⟩
      | some failure =>
          cases effect with
          | merge place changes animated =>
              have hnone := hmerge place changes animated
              rw [hp] at hnone
              exact absurd hnone (by simp)
          | _ => exact htree

/-- The tree after an execution: the effect, and then the state of the action. -/
lemma execute_tree {index : Nat} {e : Entity} (he : s.tree.entity? index = some e)
    (event : Event) :
    (s.execute index event).tree
      = (s.carryOut (s.verdict e event)).1.tree.modify index
          fun e' => { e' with state := (s.ending e event).state } := by
  rw [execute_eq he, raiseLifecycle_tree]
  cases (s.ending e event).load <;> rfl

lemma execute_journal {index : Nat} {e : Entity} (he : s.tree.entity? index = some e)
    (event : Event) :
    (s.execute index event).journal
      = s.journal ++ [executionRecord event e.id (s.ending e event).outcome] :=
  (emits_execute he event).journal

/-- What an effect may touch: the state of the action, and the place that it merges into. -/
lemma touches_execute {index : Nat} {e : Entity} (he : s.tree.entity? index = some e)
    (event : Event) :
    match (s.carryOut (s.verdict e event)).2 with
    | .error _ => s.tree.Touches index .failed none (s.execute index event).tree
    | .ok effect => (s.verdict e event).result = .ok effect
        ∧ s.tree.Touches index .finished effect.place? (s.execute index event).tree := by
  have hcarried := carryOut_tree s (s.verdict e event)
  rw [execute_tree he event, ending]
  cases hresult : (s.carryOut (s.verdict e event)).2 with
  | error failure =>
      rw [hresult] at hcarried
      dsimp only at hcarried ⊢
      rw [hcarried]
      exact s.tree.touches_modify index .failed
  | ok effect =>
      rw [hresult] at hcarried
      obtain ⟨hverdict, htree⟩ := hcarried
      refine ⟨hverdict, ?_⟩
      rw [htree]
      cases effect with
      | merge place changes animated => exact s.tree.touches_merge place changes index .finished
      | _ => exact s.tree.touches_modify index .finished

/-! ### The built-in actions -/

/-- Four of the built-in actions leave attributes alone. -/
lemma place?_eq_none {action : Action}
    (ha : action = .alert ∨ action = .refresh ∨ action = .load ∨ action = .function)
    {invocation : Invocation} {effect : Effect} (h : (action invocation).result = .ok effect) :
    effect.place? = none := by
  rcases ha with rfl | rfl | rfl | rfl
  · cases h
    rfl
  · simp only [Action.refresh, Action.quiet] at h
    repeat' split at h
    all_goals cases h <;> rfl
  · simp only [Action.load, Action.quiet] at h
    repeat' split at h
    all_goals cases h <;> rfl
  · simp only [Action.function, Action.quiet] at h
    repeat' split at h
    all_goals cases h <;> rfl

/-- The other two merge attributes into the place that their target is. -/
lemma place?_eq_target {action : Action} (ha : action = .modify ∨ action = .set)
    {invocation : Invocation} {effect : Effect} (h : (action invocation).result = .ok effect) :
    ∃ target, invocation.target = .ok target ∧ effect.place? = some (Action.place target) := by
  rcases ha with rfl | rfl
  · simp only [Action.modify, Action.quiet] at h
    split at h
    · cases h
    · rename_i target htarget
      cases h
      exact ⟨target, htarget, rfl⟩
  · simp only [Action.set, Action.quiet] at h
    split at h
    · cases h
    · cases h
    · rename_i htarget _
      cases h
      exact ⟨_, htarget, rfl⟩
    · rename_i htarget _
      split at h
      · cases h
      · cases h
        exact ⟨_, htarget, rfl⟩

/-- How the execution of an entity with a built-in action, or with none, ends. -/
inductive Acts (s : Session) (index : Nat) (e : Entity) (event : Event) (t : Session) : Prop
  /-- It succeeds, and of the tree only the state of the entity is different. -/
  | settled (plain : ¬ e.Merges)
      (journal : t.journal = s.journal ++ [executionRecord event e.id .executed])
      (tree : s.tree.Touches index .finished none t.tree)
  /-- It succeeds, and has merged attributes into the place that the target of the entity is. -/
  | merged (merges : e.Merges) (target : Target)
      (resolved : s.tree.resolveTarget e.target = .ok target)
      (journal : t.journal = s.journal ++ [executionRecord event e.id .executed])
      (tree : s.tree.Touches index .finished (some (Action.place target)) t.tree)
  /-- It fails, and of the tree only the state of the entity is different. -/
  | failed (message : String)
      (journal : t.journal = s.journal ++ [executionRecord event e.id (.failed message)])
      (tree : s.tree.Touches index .failed none t.tree)

/-- The place that a successful verdict merges into. -/
lemma place?_of_verdict {e : Entity} (hb : e.IsStandard) {event : Event} {effect : Effect}
    (h : (s.verdict e event).result = .ok effect) :
    (¬ e.Merges ∧ effect.place? = none)
      ∨ e.Merges ∧ ∃ target, s.tree.resolveTarget e.target = .ok target
          ∧ effect.place? = some (Action.place target) := by
  by_cases hm : e.Merges
  · refine .inr ⟨hm, ?_⟩
    rw [verdict] at h
    rcases hm with hm | hm <;> rw [hm] at h
    · exact place?_eq_target (.inl rfl) h
    · exact place?_eq_target (.inr rfl) h
  · refine .inl ⟨hm, ?_⟩
    rw [verdict] at h
    cases ha : e.behaviour.action? with
    | none =>
        rw [ha] at h
        cases h
        rfl
    | some action =>
        rw [ha] at h
        have hcases := hb action ha
        simp only [Action.builtins, List.map_cons, List.map_nil, List.mem_cons, List.not_mem_nil,
          or_false] at hcases
        rw [Entity.Merges, ha, Option.some.injEq, Option.some.injEq, not_or] at hm
        exact place?_eq_none (by tauto) h

/-- **An execution touches what it targets, and if it fails, nothing.**  The structure of the tree
is then, as in every run of a session, the one that the build has left. -/
theorem execute_acts (s : Session) {index : Nat} {e : Entity} (he : s.tree.entity? index = some e)
    (hb : e.IsStandard) (event : Event) :
    s.Acts index e event (s.execute index event)
      ∧ ∀ (host : Host) (document : Document) (moves : List Move),
        (document.build host.catalog host.evaluator host.dispatch).tree.SameStructure
          ((ofDocument host document).run moves).tree := by
  refine ⟨?_, fun host document moves => (ofDocument host document).sameStructure_run moves⟩
  have htouches := touches_execute he event
  have hjournal := execute_journal he event
  rw [ending] at hjournal
  cases hresult : (s.carryOut (s.verdict e event)).2 with
  | error failure =>
      rw [hresult] at htouches hjournal
      exact .failed _ hjournal htouches
  | ok effect =>
      rw [hresult] at htouches hjournal
      obtain ⟨hverdict, htree⟩ := htouches
      obtain ⟨hm, hplace⟩ | ⟨hm, target, htarget, hplace⟩ := place?_of_verdict hb hverdict
      · rw [hplace] at htree
        exact .settled hm hjournal htree
      · rw [hplace] at htree
        exact .merged hm target htarget hjournal htree

/-- An action that is its own target. -/
def mirror : Entity where
  id := "mirror"
  role := .action
  behaviour := .action Action.modify
  target := some "mirror"
  attributes := [("title", .string "seen")]

/-- The action that is its own target merges into itself, and is finished. -/
theorem execute_acts_mirror :
    let s := start Host.bare { entities := [mirror], ids := [("mirror", 0)] }
    let event : Event := ⟨⟨"success"⟩, "mirror", none⟩
    s.tree.entity? 0 = some mirror ∧ mirror.IsStandard
      ∧ s.Acts 0 mirror event (s.execute 0 event)
      ∧ (s.execute 0 event).journal = [executionRecord event "mirror" .executed] := by
  intro s event
  have he : s.tree.entity? 0 = some mirror := rfl
  have hb : mirror.IsStandard := by
    intro action ha
    cases ha
    simp [Action.builtins]
  exact ⟨he, hb, (execute_acts s he hb event).1, by decide +kernel⟩

end Session

end Componentry

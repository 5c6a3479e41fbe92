import Mathlib.Tactic
import Componentry.Proofs.Session.Execution
import Componentry.Proofs.Session.Fate
import Componentry.Proofs.Session.Hidden
/-!
# The loads that actions ask for

Two of the built-in actions ask for loads.  Of the entity that its target leads to, `load` wants to
know whether there is a provider, and `refresh` what its role is (`Tree.Asks`).  Either of them has
succeeded as soon as it has asked, and the load is accepted.  Only with the first move of the load
it shows whether it can be carried out, which depends on the provider alone
(`fate_run_eq_unavailable`).

In a built tree all providers are at entities of their role (`Tree.Fitting`).  So `refresh` takes
whatever `load` takes, and it takes the data providers without a type as well, of which no load ever
comes to anything.
-/

namespace Componentry

namespace Action

variable {invocation : Invocation} {i : Nat}

/-- `load` wants a provider. -/
lemma load_result_iff : (load invocation).result = .ok (.load i)
    ↔ ∃ e, invocation.target = .ok (.entity e) ∧ e.index = i ∧ e.loads = true := by
  simp only [load, quiet]
  constructor
  · intro h
    split at h
    · cases h
    · rename_i e htarget
      split_ifs at h with hloads
      cases h
      exact ⟨e, htarget, rfl, hloads⟩
    · cases h
  · rintro ⟨e, htarget, rfl, hloads⟩
    rw [htarget]
    exact if_pos hloads

/-- `refresh` wants an entity of the role of providers. -/
lemma refresh_result_iff : (refresh invocation).result = .ok (.load i)
    ↔ ∃ e, invocation.target = .ok (.entity e) ∧ e.index = i ∧ e.role = .dataProvider := by
  simp only [refresh, quiet]
  constructor
  · intro h
    split at h
    · cases h
    · rename_i e htarget
      split at h
      · rename_i hrole
        cases h
        exact ⟨e, htarget, rfl, hrole⟩
      · cases h
      · cases h
    · cases h
  · rintro ⟨e, htarget, rfl, hrole⟩
    rw [htarget]
    dsimp only
    rw [hrole]

/-- The other built-in actions do not ask for loads. -/
lemma result_ne_load {action : Action}
    (ha : action = alert ∨ action = modify ∨ action = set ∨ action = function) :
    (action invocation).result ≠ .ok (.load i) := by
  intro h
  rcases ha with rfl | rfl | rfl | rfl
  · cases h
  · obtain ⟨target, -, hplace⟩ := Session.place?_eq_target (.inl rfl) h
    cases hplace
  · obtain ⟨target, -, hplace⟩ := Session.place?_eq_target (.inr rfl) h
    cases hplace
  · simp only [function, quiet] at h
    repeat' split at h
    all_goals cases h

/-- The two actions that ask for loads refuse a store in different words. -/
lemma load_ne_refresh : load ≠ refresh := by
  intro h
  have hrefused := congrArg Verdict.result
    (congrFun h ⟨"", none, .ok .app, [], ⟨⟨""⟩, "", none⟩⟩)
  revert hrefused
  decide

end Action

namespace Tree

variable {t u : Tree} {i : Nat}

/-- Whether there is a provider at an index. -/
def Provides (t : Tree) (i : Nat) : Prop :=
  ∃ e, t.entity? i = some e ∧ e.behaviour.dataProvider?.isSome

/-- Whether a declared target leads to the entity at an index. -/
def LeadsTo (t : Tree) (declared : Option String) (i : Nat) : Prop :=
  ∃ e, t.entity? i = some e ∧ t.resolveTarget declared = .ok (.entity (targetEntity i e))

/-- Whether an entity asks for a load of the entity at an index when it runs.  The two actions that
do so look at different things. -/
inductive Asks (t : Tree) (e : Entity) (i : Nat) : Prop
  | load (action : e.behaviour.action? = some Action.load) (target : t.LeadsTo e.target i)
      (provides : t.Provides i)
  | refresh (action : e.behaviour.action? = some Action.refresh) (target : t.LeadsTo e.target i)
      (role : t.roleAt? i = some .dataProvider)

/-- What a declared target resolves to is an entity of the tree as it is seen by an action. -/
lemma exists_of_resolveTarget {declared : Option String} {seen : TargetEntity}
    (h : t.resolveTarget declared = .ok (.entity seen)) :
    ∃ e, t.entity? seen.index = some e ∧ seen = targetEntity seen.index e := by
  rw [resolveTarget] at h
  split at h
  · cases h
  · cases h
  · cases h
  · split at h
    · cases h
    · rename_i index _
      split at h
      · cases h
      · rename_i e he
        cases h
        exact ⟨e, he, rfl⟩

/-- What an action sees of its target is what holds of the entity there. -/
lemma exists_seen_iff {declared : Option String} {P : TargetEntity → Prop} :
    (∃ seen, t.resolveTarget declared = .ok (.entity seen) ∧ seen.index = i ∧ P seen)
      ↔ t.LeadsTo declared i ∧ ∃ e, t.entity? i = some e ∧ P (targetEntity i e) := by
  constructor
  · rintro ⟨seen, htarget, rfl, hseen⟩
    obtain ⟨e, he, heq⟩ := exists_of_resolveTarget htarget
    rw [heq] at hseen htarget
    exact ⟨⟨e, he, htarget⟩, e, he, hseen⟩
  · rintro ⟨⟨e, he, htarget⟩, e', he', hseen⟩
    obtain rfl : e = e' := Option.some.inj (he.symm.trans he')
    exact ⟨_, htarget, rfl, hseen⟩

/-- The role is seen by an action. -/
lemma exists_role_iff {declared : Option String} {role : Role} :
    (∃ seen, t.resolveTarget declared = .ok (.entity seen) ∧ seen.index = i ∧ seen.role = role)
      ↔ t.LeadsTo declared i ∧ t.roleAt? i = some role := by
  rw [exists_seen_iff, roleAt?, Option.map_eq_some_iff]
  rfl

/-- For `load` it is the provider that counts. -/
lemma asks_load_iff {e : Entity} (ha : e.behaviour.action? = some Action.load) :
    t.Asks e i ↔ t.LeadsTo e.target i ∧ t.Provides i := by
  constructor
  · rintro (⟨-, htarget, hprovides⟩ | ⟨ha', -, -⟩)
    · exact ⟨htarget, hprovides⟩
    · exact absurd (Option.some.inj (ha.symm.trans ha')) Action.load_ne_refresh
  · exact fun ⟨htarget, hprovides⟩ => .load ha htarget hprovides

/-- For `refresh` it is the role that counts. -/
lemma asks_refresh_iff {e : Entity} (ha : e.behaviour.action? = some Action.refresh) :
    t.Asks e i ↔ t.LeadsTo e.target i ∧ t.roleAt? i = some .dataProvider := by
  constructor
  · rintro (⟨ha', -, -⟩ | ⟨-, htarget, hrole⟩)
    · exact absurd (Option.some.inj (ha'.symm.trans ha)) Action.load_ne_refresh
    · exact ⟨htarget, hrole⟩
  · exact fun ⟨htarget, hrole⟩ => .refresh ha htarget hrole

/-- In a tree whose behaviours fit, a provider has its role. -/
lemma Provides.roleAt?_eq (h : t.Provides i) (ht : t.Fitting) :
    t.roleAt? i = some .dataProvider := by
  obtain ⟨e, he, hprovides⟩ := h
  rw [roleAt?, he, Option.map_some, (ht i e he).role_eq hprovides]

lemma SameStructure.provides_iff (h : t.SameStructure u) : u.Provides i ↔ t.Provides i := by
  have hmap := h.map_eq i (fun e => e.behaviour.dataProvider?.isSome) fun _ => rfl
  have hsome : ∀ w : Tree, w.Provides i
      ↔ (w.entity? i).map (fun e => e.behaviour.dataProvider?.isSome) = some true := by
    intro w
    rw [Option.map_eq_some_iff]
    rfl
  rw [hsome, hsome, hmap]

end Tree

namespace Session

variable {s : Session} {e : Entity} {event : Event} {i : Nat}

/-- **The loads that an execution asks for.** -/
lemma verdict_eq_load_iff (hb : e.IsStandard) :
    (s.verdict e event).result = .ok (.load i) ↔ s.tree.Asks e i := by
  rw [verdict]
  cases ha : e.behaviour.action? with
  | none =>
      refine iff_of_false (fun h => by cases h) ?_
      rintro (⟨ha', -, -⟩ | ⟨ha', -, -⟩) <;> simp [ha] at ha'
  | some action =>
      have hcases := hb action ha
      simp only [Action.builtins, List.map_cons, List.map_nil, List.mem_cons, List.not_mem_nil,
        or_false] at hcases
      dsimp only
      by_cases hload : action = Action.load
      · subst hload
        rw [Action.load_result_iff, Tree.asks_load_iff ha]
        exact Tree.exists_seen_iff
      by_cases hrefresh : action = Action.refresh
      · subst hrefresh
        rw [Action.refresh_result_iff, Tree.asks_refresh_iff ha]
        exact Tree.exists_role_iff
      refine iff_of_false (Action.result_ne_load (by tauto)) ?_
      rintro (⟨ha', -, -⟩ | ⟨ha', -, -⟩) <;> rw [ha, Option.some.injEq] at ha' <;> contradiction

/-- An action that asks for a load has succeeded with it. -/
lemma ending_of_load (h : (s.verdict e event).result = .ok (.load i)) :
    (s.ending e event).outcome = .executed ∧ (s.ending e event).load = some i := by
  have hcarried : (s.carryOut (s.verdict e event)).2 = .ok (.load i) := by
    rw [carryOut, h]
    rfl
  rw [ending, hcarried]
  exact ⟨rfl, rfl⟩

/-- A load cannot be carried out if, and only if, there is no provider. -/
lemma fate_eq_unavailable_iff : s.fate i = .unavailable ↔ ¬s.tree.Provides i := by
  rw [fate, Tree.Provides]
  cases he : s.tree.entity? i with
  | none => simp
  | some e =>
      cases hprovider : e.behaviour.dataProvider? with
      | none => simp [hprovider]
      | some provider =>
          simp only [hprovider]
          split_ifs <;> simp [hprovider]

/-- When a load makes its first move, this does not depend on what has happened before. -/
lemma fate_run_eq_unavailable (s : Session) (moves : List Move) :
    (s.run moves).fate i = .unavailable ↔ ¬s.tree.Provides i := by
  rw [fate_eq_unavailable_iff, (s.sameStructure_run moves).provides_iff]

/-- In every state of a session behaviours fit. -/
lemma fitting_run (host : Host) (document : Document) (moves : List Move) :
    ((ofDocument host document).run moves).tree.Fitting :=
  ((ofDocument host document).sameStructure_run moves).fitting
    (document.build_fitting host.catalog host.evaluator host.dispatch)

/-- **What asks for a load succeeds, and the load is accepted, also if it cannot be carried out.**

* An execution asks for a load if its action is `load` and there is a provider at its target, or if
  it is `refresh` and its target is of the role of providers.
* It is then recorded as executed, and one load is accepted.  Whenever this makes its first move, it
  is refused for want of a provider just if there is none.
* In every state of a session `load` takes the targets that `refresh` takes as providers, except for
  those without a provider. -/
theorem execute_asks (s : Session) {index : Nat} {e : Entity}
    (he : s.tree.entity? index = some e) (hb : e.IsStandard) (event : Event) (i : Nat) :
    let t := s.execute index event
    ((s.verdict e event).result = .ok (.load i) ↔ s.tree.Asks e i)
      ∧ (s.tree.Asks e i → t.journal = s.journal ++ [executionRecord event e.id .executed]
        ∧ s.Accepts [i] t
        ∧ ∀ moves, (t.run moves).fate i = .unavailable ↔ ¬s.tree.Provides i)
      ∧ ∀ (host : Host) (document : Document) (moves : List Move) (loading refreshing : Entity),
        loading.behaviour.action? = some Action.load →
        refreshing.behaviour.action? = some Action.refresh → refreshing.target = loading.target →
        let u := ((ofDocument host document).run moves).tree
        ∀ j, u.Asks loading j ↔ u.Asks refreshing j ∧ u.Provides j := by
  intro t
  refine ⟨verdict_eq_load_iff hb, fun h => ?_, ?_⟩
  · obtain ⟨houtcome, hload⟩ : (s.ending e event).outcome = .executed
        ∧ (s.ending e event).load = some i := ending_of_load ((verdict_eq_load_iff hb).mpr h)
    have haccepts := s.accepts_execute index event
    rw [executionLoads, he] at haccepts
    dsimp only at haccepts
    rw [hload] at haccepts
    refine ⟨?_, haccepts, fun moves => ?_⟩
    · rw [execute_journal he, houtcome]
    · have htree := (emits_execute he event).tree
      rw [fate_run_eq_unavailable, htree.provides_iff]
  · intro host document moves loading refreshing hloading hrefreshing htarget u j
    rw [Tree.asks_load_iff hloading, Tree.asks_refresh_iff hrefreshing, htarget]
    have hrole : u.Provides j → u.roleAt? j = some .dataProvider :=
      fun h => h.roleAt?_eq (fitting_run host document moves)
    tauto

/-- A data provider without a type. -/
def untyped : Document where
  members := [("id", .string "screen"),
    ("dataProviders", .array [.object [("id", .string "feed")]])]

/-- An action that refreshes the provider. -/
def refreshing : Entity where
  id := "act"
  role := .action
  behaviour := .action Action.refresh
  target := some "feed"

/-- The action is recorded as executed, and its load is for nothing.  In place of it `load` would
not ask for one. -/
theorem execute_asks_untyped :
    let s := start Host.bare
      { entities := [{ id := "feed", role := .dataProvider }, refreshing], ids := [("feed", 0)] }
    let event : Event := ⟨⟨"touch"⟩, "act", none⟩
    let t := s.execute 1 event
    let loading := { refreshing with behaviour := .action Action.load }
    let u := (ofDocument (Host.answering 0 (.ok (.string "news"))) untyped).tree
    (s.tree.entity? 1 = some refreshing ∧ refreshing.IsStandard ∧ s.tree.Asks refreshing 0
        ∧ ¬s.tree.Provides 0 ∧ t.journal = [executionRecord event "act" .executed]
        ∧ s.Accepts [0] t ∧ ∀ moves, (t.run moves).fate 0 = .unavailable)
      ∧ u.Asks refreshing 1 ∧ ¬u.Asks loading 1 := by
  intro s event t loading u
  have he : s.tree.entity? 1 = some refreshing := rfl
  have hb : refreshing.IsStandard := by
    intro action ha
    cases ha
    simp [Action.builtins]
  have hasks : s.tree.Asks refreshing 0 := .refresh rfl ⟨_, rfl, by decide +kernel⟩ rfl
  have hnone : ¬s.tree.Provides 0 := by
    rintro ⟨feed, hfeed, hprovides⟩
    cases hfeed
    cases hprovides
  obtain ⟨-, hexecuted, hagree⟩ := execute_asks s he hb event 0
  obtain ⟨hjournal, haccepts, hfate⟩ := hexecuted hasks
  have huntyped : u.Asks refreshing 1 := by
    refine (Tree.asks_refresh_iff rfl).mpr (Tree.exists_role_iff.mp ?_)
    exact ⟨⟨1, "feed", .dataProvider, none, false⟩, by decide +kernel, rfl, rfl⟩
  refine ⟨⟨he, hb, hasks, hnone, hjournal, haccepts, fun moves => (hfate moves).mpr hnone⟩,
    huntyped, fun hloading => ?_⟩
  have hprovides : u.Provides 1 := ((hagree (Host.answering 0 (.ok (.string "news"))) untyped []
    loading refreshing rfl rfl rfl 1).mp hloading).2
  obtain ⟨feed, hfeed, hprovides⟩ := hprovides
  have hfalse : (u.entity? 1).map (fun e => e.behaviour.dataProvider?.isSome) = some false := by
    decide +kernel
  rw [hfeed, Option.map_some, hprovides] at hfalse
  cases hfalse

end Session

end Componentry

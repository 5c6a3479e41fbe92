import Mathlib.Tactic
import Componentry.Proofs.Build.WellFormed
import Componentry.Proofs.Component.Control
import Componentry.Proofs.Session.States
/-!
# Controls stay in normal form

The attributes of an entity are written when it is built and whenever an action merges changes into
it, and both times its control has the last word: what is written is what the control has
configured (`Entity.Configured`).  Nothing else writes attributes, which is what `Tree.Kept` is
about: the properties of trees that merging keeps, and that any change of states and payloads keeps.
A move keeps them (`Tree.Kept.apply`), so a run does.

For the built-in controls what has been configured is in normal form, whatever was merged
(`Session.run_normal`).
-/

namespace Componentry

/-! ### What is configured when it is built -/

/-- An entity whose control, if it has one, has configured its attributes. -/
def Entity.Configured (e : Entity) : Prop :=
  ∀ control, e.behaviour.control? = some control →
    ∃ written, e.attributes = control.configure written

/-- An entity that was declared as a control of some type is one that a catalog makes. -/
def Entity.MadeBy (catalog : Catalog) (e : Entity) : Prop :=
  e.role = .control → ∀ typeName, e.typeName = some typeName →
    ∃ make blueprint control, catalog.resolveControl typeName = .ok make
      ∧ make blueprint = .ok control ∧ e.behaviour = .control control
      ∧ catalog.className .control typeName = .ok e.className

namespace Builder

variable {builder : Builder} {t : Tree} {role : Role} {owner : Option Nat} {id : String}
  {own : Attributes} {e : Entity} {faults : List BuildFault}

lemma behaviour_control {b : Blueprint} {behaviour : Behaviour} {attributes : Attributes}
    (h : builder.behaviour .control b = .ok (behaviour, attributes)) :
    ∃ make control, builder.catalog.resolveControl b.typeName = .ok make ∧ make b = .ok control
      ∧ behaviour = .control control ∧ attributes = control.configure b.attributes := by
  cases hr : builder.catalog.resolveControl b.typeName with
  | error e => simp [Builder.behaviour, made, hr, bind, Except.bind] at h
  | ok make =>
      cases hm : make b with
      | error message => simp [Builder.behaviour, made, hr, hm, bind, Except.bind] at h
      | ok control =>
          simp only [Builder.behaviour, made, hr, hm, bind, Except.bind, pure, Except.pure,
            Except.ok.injEq, Prod.mk.injEq] at h
          exact ⟨make, control, rfl, hm, h.1.symm, h.2.symm⟩

lemma behaviour_of_ne (hrole : role ≠ .control) {b : Blueprint} {behaviour : Behaviour}
    {attributes : Attributes} (h : builder.behaviour role b = .ok (behaviour, attributes)) :
    behaviour.control? = none := by
  cases role with
  | control => exact absurd rfl hrole
  | dataProvider | action =>
      simp only [Builder.behaviour, bind, Except.bind, pure, Except.pure] at h
      split at h
      · cases h
      · cases h
        rfl

/-- What is described is configured, and made by the catalog. -/
lemma describe_configured (h : builder.describe t role owner id own = (faults, some e)) :
    e.Configured ∧ e.MadeBy builder.catalog := by
  obtain ⟨faults', e', ht, rfl⟩ := describe_eq h
  have hrole := (typed_isNew ht).role_eq
  have hsame : e'.Configured ∧ e'.MadeBy builder.catalog := by
    rcases typed_cases ht with ⟨htype, hnone⟩ | ⟨typeName, attributes, htype, hclass, hb⟩
    · refine ⟨fun control hc => ?_, fun _ typeName hsome => ?_⟩
      · simp [hnone, Behaviour.control?] at hc
      · simp [htype] at hsome
    · by_cases hcontrol : role = .control
      · subst hcontrol
        obtain ⟨make, control, hr, hm, hbehaviour, hattributes⟩ := behaviour_control hb
        refine ⟨fun other hc => ?_, fun _ other hother => ?_⟩
        · rw [hbehaviour, Behaviour.control?, Option.some.injEq] at hc
          exact ⟨attributes, hc ▸ hattributes⟩
        · obtain rfl : typeName = other := Option.some.inj (htype.symm.trans hother)
          refine ⟨make, _, control, hr, hm, hbehaviour, ?_⟩
          obtain ⟨name, hname⟩ := Catalog.className_of_resolveControl hr
          rw [hclass, className]
          simp [Role.category, hname]
      · refine ⟨fun control hc => ?_, fun h => absurd (hrole.symm.trans h) hcontrol⟩
        simp [behaviour_of_ne hcontrol hb] at hc
  rw [completed]
  dsimp only
  split <;> exact hsame

end Builder

lemma Document.build_configured (document : Document) (catalog : Catalog) (evaluator : Evaluator)
    (dispatch : DispatchConfig) : ∀ i e,
      (document.build catalog evaluator dispatch).tree.entity? i = some e →
        e.Configured ∧ e.MadeBy catalog :=
  Builder.forall_build Builder.describe_configured (fun _ _ _ _ h => h) document

/-! ### What a session keeps -/

/-- A property of trees that merging attributes keeps, and that every change of the state and the
payload of an entity keeps. -/
structure Tree.Kept (P : Tree → Prop) : Prop where
  merge : ∀ t place changes, P t → P (t.merge place changes)
  settle : ∀ t index f, (∀ e : Entity, (f e).frame = e.frame ∧ (f e).attributes = e.attributes) →
    P t → P (t.modify index f)

/-- That all entities are configured is such a property. -/
lemma Tree.kept_configured : Tree.Kept fun t => ∀ i e, t.entity? i = some e → e.Configured where
  merge t place changes h := by
    cases place with
    | app | session => exact h
    | entity index =>
        refine Tree.forall_modify h index fun e _ control hc => ?_
        exact ⟨e.attributes.extend changes, by simp only [hc]⟩
  settle t index f hf h := by
    refine Tree.forall_modify h index fun e he control hc => ?_
    have hbehaviour : (f e).behaviour = e.behaviour := by
      have hframe : (f e).frame.behaviour = e.frame.behaviour := by rw [(hf e).1]
      exact hframe
    rw [(hf e).2]
    exact he control (hbehaviour ▸ hc)

lemma Session.dispatch_tree (s : Session) (event : Event) :
    (s.accepted (s.dispatch event)).tree = s.tree := by
  rw [Session.dispatch]
  split_ifs
  · rfl
  · rfl
  · rfl
  · rw [accepted, enqueue_tree]

namespace Tree.Kept

open Session

variable {P : Tree → Prop} {s : Session}

lemma setState (h : Tree.Kept P) (hs : P s.tree) (index : Nat) (state : LifecycleState) :
    P (s.setState index state).tree :=
  h.settle _ _ _ (fun _ => ⟨rfl, rfl⟩) hs

lemma carryOut (h : Tree.Kept P) (hs : P s.tree) (verdict : Verdict) :
    P (s.carryOut verdict).1.tree := by
  have htree := carryOut_tree s verdict
  split at htree
  · rwa [htree]
  · rw [htree.2]
    split
    · exact h.merge _ _ _ hs
    · exact hs

lemma execute (h : Tree.Kept P) (hs : P s.tree) (index : Nat) (event : Event) :
    P (s.execute index event).tree := by
  cases he : s.tree.entity? index with
  | none =>
      rw [Session.execute, he]
      exact hs
  | some e =>
      rw [execute_tree he]
      exact h.settle _ _ _ (fun _ => ⟨rfl, rfl⟩) (h.carryOut hs _)

lemma refireSteps (h : Tree.Kept P) (hs : P s.tree) (event : Event) (steps : List PlannedStep) :
    P (steps.foldl (fun s step => s.refireStep event step) s).tree := by
  induction steps generalizing s with
  | nil => exact hs
  | cons step rest ih =>
      refine ih ?_
      cases step with
      | run run => exact h.execute hs run.action event
      | skip actionId reason => exact hs

lemma take (h : Tree.Kept P) (hs : P s.tree) (source : String) (message : Message) :
    P (s.take source message).tree := by
  cases message with
  | deliver event =>
      rw [Session.take, Session.deliver]
      split
      · exact hs
      · exact hs
      · rw [proceed_tree]
        exact hs
  | refire action event =>
      rw [Session.take, Session.refire]
      split
      · exact h.refireSteps hs event _
      · exact hs

lemma advanceLane (h : Tree.Kept P) (hs : P s.tree) (source : String) :
    P (s.advanceLane source).tree := by
  rw [Session.advanceLane]
  split
  · split_ifs
    · exact hs
    · rw [runNext, proceed_tree, scheduleRepeat_tree]
      exact h.execute hs _ _
    · exact hs
  · exact hs
  · split_ifs
    · exact hs
    · refine h.take ?_ source _
      exact hs

lemma completeLoad (h : Tree.Kept P) (hs : P s.tree) (provider : Nat) (result : LoadResult) :
    P (s.completeLoad provider result).tree := by
  cases he : s.tree.entity? provider with
  | none =>
      rw [Session.completeLoad, he]
      exact hs
  | some e =>
      rw [completeLoad_eq he, raiseLifecycle_tree]
      exact h.settle _ _ _ (fun e => ⟨loaded_frame e result, rfl⟩) hs

lemma advanceLoad (h : Tree.Kept P) (hs : P s.tree) (ticket : Nat) :
    P (s.advanceLoad ticket).tree := by
  rw [Session.advanceLoad]
  split
  · exact hs
  · rename_i load _
    split
    · rw [beginLoad]
      split
      · exact hs
      · split
        · exact hs
        · split_ifs
          · exact hs
          · exact hs
          · obtain ⟨u, arrival, result, htree, -, -, hask⟩ :=
              exists_ask_eq (s.setState load.provider .running) load.ticket _ _
            rw [hask]
            exact htree ▸ h.setState hs load.provider .running
    · split_ifs
      · rw [endLoad]
        split_ifs
        · exact hs
        · exact h.completeLoad hs _ _
      · exact hs

lemma raise (hs : P s.tree) (source name : String) (payload : Option Json) :
    P (s.accepted (s.raise source name payload)).tree := by
  unfold Session.raise
  split
  · exact hs
  · exact s.dispatch_tree _ ▸ hs

lemma load (hs : P s.tree) (id : String) : P (s.accepted (s.load id)).tree := by
  rw [Session.load]
  split_ifs
  · exact hs
  · split
    · exact hs
    · split_ifs <;> exact hs

lemma begin (h : Tree.Kept P) (hs : P s.tree) (id : String) :
    P (s.accepted (s.begin id)).tree := by
  rw [Session.begin]
  split
  · exact hs
  · split
    · exact hs
    · exact h.setState hs _ _

lemma complete (h : Tree.Kept P) (hs : P s.tree) (id : String) (outcome : LifecycleEvent)
    (payload : Option Json) : P (s.accepted (s.complete id outcome payload)).tree := by
  rw [Session.complete]
  split
  · exact hs
  · split
    · exact hs
    · rw [accepted, raiseLifecycle_tree]
      exact h.setState hs _ _

lemma advanceTimer (hs : P s.tree) (generation : Nat) : P (s.advanceTimer generation).tree := by
  rw [Session.advanceTimer]
  split
  · exact hs
  · split_ifs
    · rw [enqueue_tree]
      exact hs
    · exact hs

/-- **A move keeps it**: nothing else changes the tree. -/
theorem apply (h : Tree.Kept P) (hs : P s.tree) (m : Move) : P (s.apply m).tree := by
  cases m with
  | dispatch event => exact s.dispatch_tree event ▸ hs
  | raise source name payload => exact raise hs source name payload
  | load id => exact load hs id
  | begin id => exact h.begin hs id
  | complete id outcome payload => exact h.complete hs id outcome payload
  | teardown => exact s.teardown_tree ▸ hs
  | elapse moment => exact hs
  | advance task =>
      cases task with
      | lane source => exact h.advanceLane hs source
      | load ticket => exact h.advanceLoad hs ticket
      | timer generation => exact advanceTimer hs generation

theorem run (h : Tree.Kept P) (hs : P s.tree) (moves : List Move) : P (s.run moves).tree := by
  induction moves generalizing s with
  | nil => exact hs
  | cons m moves ih => exact ih (h.apply hs m)

end Tree.Kept

namespace Session

/-- All controls of a run are configured. -/
lemma configured_run (host : Host) (document : Document) (moves : List Move) :
    ∀ i e, ((ofDocument host document).run moves).tree.entity? i = some e → e.Configured :=
  Tree.kept_configured.run (fun i e he => (document.build_configured _ _ _ i e he).1) moves

/-- What a catalog has made when the session was opened is what is there. -/
lemma madeBy_run (host : Host) (document : Document) (moves : List Move) {i : Nat} {e : Entity}
    (he : ((ofDocument host document).run moves).tree.entity? i = some e) :
    e.MadeBy host.catalog := by
  obtain ⟨e', he', hframe⟩ :=
    ((ofDocument host document).sameStructure_run moves).symm.exists_entity he
  have hmade := (document.build_configured host.catalog host.evaluator host.dispatch i e' he').2
  have hfields : e'.frame.MadeBy host.catalog := hmade
  rw [hframe] at hfields
  exact hfields

/-- **Controls stay in normal form**, in every state that a session of any document reaches.  The
attributes of a built-in control are what its configuration leaves as it is, and show what that type
shows.  With the built-in components in the catalog this is said of every control of a type: the
type, in whatever spelling, is one of the built-in ones. -/
theorem run_normal (host : Host) (document : Document) (moves : List Move) {i : Nat} {e : Entity}
    (he : ((ofDocument host document).run moves).tree.entity? i = some e) :
    (∀ name control, (name, control) ∈ Control.builtins → e.behaviour.control? = some control →
        control.configure e.attributes = e.attributes ∧ Control.Normal name e.attributes)
      ∧ ∀ config typeName, Catalog.withBuiltins config = .ok host.catalog → e.role = .control →
        e.typeName = some typeName →
          ∃ name control, (name, control) ∈ Control.builtins
            ∧ host.catalog.className .control name = .ok e.className
            ∧ e.behaviour = .control control
            ∧ control.configure e.attributes = e.attributes ∧ Control.Normal name e.attributes := by
  have hnormal : ∀ name control, (name, control) ∈ Control.builtins →
      e.behaviour.control? = some control →
        control.configure e.attributes = e.attributes ∧ Control.Normal name e.attributes := by
    intro name control hc hbehaviour
    obtain ⟨written, hwritten⟩ := configured_run host document moves i e he control hbehaviour
    have h := Control.normal_configure hc written
    rw [← hwritten] at h
    exact ⟨(Control.configure_eq_self_iff hc).mpr h, h⟩
  refine ⟨hnormal, fun config typeName hcatalog hrole htype => ?_⟩
  obtain ⟨make, blueprint, control, hr, hm, hbehaviour, hclass⟩ :=
    madeBy_run host document moves he hrole typeName htype
  obtain ⟨name, known, hknown, rfl, hname⟩ := Catalog.resolveControl_withBuiltins hcatalog hr
  obtain rfl : known = control := Except.ok.inj hm
  exact ⟨name, known, hknown, hname.symm.trans hclass, hbehaviour,
    hnormal name known hknown (by rw [hbehaviour]; rfl)⟩

/-- A picture with an action that gives it another source. -/
def gallery : Document where
  members := [("id", .string "picture"), ("type", .string "Image"),
    ("attributes", .object [("source", .string "still.png")]),
    ("actions", .array [.object [("id", .string "swap"), ("type", .string "modify"),
      ("on", .string "success"), ("target", .string "picture"),
      ("attributes", .object [("source", .string "walk.GIF")])]])]

lemma withBuiltins_answering (latency : Nat) (result : LoadResult) :
    Catalog.withBuiltins {} = .ok (Host.answering latency result).catalog := by
  have hok : (Catalog.withBuiltins {}).isOk = true := by decide +kernel
  unfold Host.answering
  cases h : Catalog.withBuiltins {} with
  | error e => simp [h, Except.isOk, Except.toBool] at hok
  | ok catalog => rfl

/-- The picture is known to be animated as soon as its source is. -/
theorem run_normal_gallery :
    let opened := ofDocument (Host.answering 0 (.ok .null)) gallery
    let moves : List Move := [.raise "picture" "success" none, .advance (.lane "picture"),
      .advance (.lane "picture")]
    let shown := fun s : Session =>
      (s.tree.entity? 0).map fun e => (e.role, e.typeName, e.attributes)
    shown opened = some (.control, some "Image",
        [("source", .string "still.png"), ("animated", .bool false)])
      ∧ shown (opened.run moves) = some (.control, some "Image",
        [("source", .string "walk.GIF"), ("animated", .bool true)])
      ∧ Catalog.withBuiltins {} = .ok opened.host.catalog
      ∧ ∃ e, (opened.run moves).tree.entity? 0 = some e
        ∧ ∃ name control, (name, control) ∈ Control.builtins
          ∧ opened.host.catalog.className .control name = .ok e.className
          ∧ e.behaviour = .control control
          ∧ control.configure e.attributes = e.attributes ∧ Control.Normal name e.attributes := by
  intro opened moves shown
  have hshown : shown opened = some (.control, some "Image",
        [("source", .string "still.png"), ("animated", .bool false)])
      ∧ shown (opened.run moves) = some (.control, some "Image",
        [("source", .string "walk.GIF"), ("animated", .bool true)]) := by decide +kernel
  have hcatalog : Catalog.withBuiltins {} = .ok opened.host.catalog :=
    withBuiltins_answering 0 (.ok .null)
  obtain ⟨e, he, hfields⟩ := Option.map_eq_some_iff.mp hshown.2
  simp only [Prod.mk.injEq] at hfields
  obtain ⟨hrole, htype, -⟩ := hfields
  refine ⟨hshown.1, hshown.2, hcatalog, e, he, ?_⟩
  exact (run_normal _ gallery moves he).2 {} "Image" hcatalog hrole htype

end Session

end Componentry

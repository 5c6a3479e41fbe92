import Mathlib.Tactic
import Componentry.Build.Basic
import Componentry.Proofs.Tree.Structure
/-!
# What the walk through a document keeps

Building a document is one long walk, and it touches the tree in five ways only: it reports faults,
enters an entity, lists a control or a provider below its owner, and binds events to an action.
`Entity.IsNew` says how an entity looks when it enters the tree.

An entity is *open* from the moment it enters the tree until it is linked to its owner.  The open
entities form a stack: what enters while an entity is on top belongs to it, and is closed before the
entity is.  `Builder.Tracks P` says that the steps of the walk keep a property `P` of the stack and
the build.  The induction over the declarations follows the walk: first the actions below an entity
(`Builder.TracksActions`, which asks for less), then the data providers, then the controls
(`Builder.Tracks.control`).  `Builder.Tracks.build` is the result for a whole document.

Many properties do not look at the stack.  `Builder.Keeps` is for them, and `Builder.Keeps.build`
follows from the general case.  Properties that all entities have by themselves are the simplest ones
(`Builder.forall_build`).
-/

namespace Componentry

/-- An event name in normal form. -/
def EventName.IsNormal (name : EventName) : Prop := ∃ text, EventName.ofText? text = some name

/-! ### New entities -/

/-- How an entity looks when it enters the tree: nothing is linked to it yet. -/
structure Entity.IsNew (e : Entity) (id : String) (role : Role) (owner : Option Nat) : Prop where
  id_eq : e.id = id
  role_eq : e.role = role
  parent_eq : e.parent = owner
  controls_eq : e.controls = []
  dataProviders_eq : e.dataProviders = []
  bindings_eq : e.bindings = []
  state_eq : e.state = .idle
  payload_eq : e.payload = none

namespace Builder

/-- What a declaration is described by has no links, and the id and the role it was asked for. -/
lemma typed_isNew {builder : Builder} {role : Role} {id : String} {own : Attributes} {e : Entity}
    {faults : List BuildFault} (h : builder.typed role id own = (faults, some e)) :
    e.IsNew id role none := by
  rw [typed] at h
  split at h
  · exact absurd (congrArg Prod.snd h) (by simp)
  · dsimp only at h
    split at h
    · simp only [Prod.mk.injEq, Option.some.injEq] at h
      rw [← h.2]
      exact ⟨rfl, rfl, rfl, rfl, rfl, rfl, rfl, rfl⟩
    · split at h
      · exact absurd (congrArg Prod.snd h) (by simp)
      · simp only [Prod.mk.injEq, Option.some.injEq] at h
        rw [← h.2]
        exact ⟨rfl, rfl, rfl, rfl, rfl, rfl, rfl, rfl⟩

/-- What a declaration is described by has a behaviour if it has a type, and the behaviour decides
on the attributes then. -/
lemma typed_cases {builder : Builder} {role : Role} {id : String} {own : Attributes} {e : Entity}
    {faults : List BuildFault} (h : builder.typed role id own = (faults, some e)) :
    (e.typeName = none ∧ e.behaviour = .none)
      ∨ ∃ typeName attributes, e.typeName = some typeName
          ∧ e.className = builder.className role typeName
          ∧ builder.behaviour role { id, typeName, attributes } = .ok (e.behaviour, e.attributes) := by
  rw [typed] at h
  split at h
  · cases h
  · dsimp only at h
    split at h
    · cases h
      exact .inl ⟨rfl, rfl⟩
    · split at h
      · cases h
      · rename_i hb
        cases h
        exact .inr ⟨_, _, rfl, rfl, hb⟩

/-- The rest of the description adds the owner and no links. -/
lemma completed_isNew {builder : Builder} {t : Tree} {owner : Option Nat} {own : Attributes}
    {e : Entity} {id : String} {role : Role} (h : e.IsNew id role none) :
    (builder.completed t owner own e).2.IsNew id role owner := by
  obtain ⟨hid, hrole, -, hc, hd, hb, hs, hp⟩ := h
  rw [completed]
  dsimp only
  split <;> exact ⟨hid, hrole, rfl, hc, hd, hb, hs, hp⟩

lemma describe_eq {builder : Builder} {t : Tree} {role : Role} {owner : Option Nat} {id : String}
    {own : Attributes} {e : Entity} {faults : List BuildFault}
    (h : builder.describe t role owner id own = (faults, some e)) :
    ∃ faults' e', builder.typed role id own = (faults', some e')
      ∧ e = (builder.completed t owner own e').2 := by
  rw [describe] at h
  split at h
  · cases h
  · rename_i faults' e' ht
    exact ⟨faults', e', ht, (Option.some.inj (congrArg Prod.snd h)).symm⟩

lemma describe_isNew {builder : Builder} {t : Tree} {role : Role} {owner : Option Nat}
    {id : String} {own : Attributes} {e : Entity} {faults : List BuildFault}
    (h : builder.describe t role owner id own = (faults, some e)) : e.IsNew id role owner := by
  obtain ⟨faults', e', ht, rfl⟩ := describe_eq h
  exact completed_isNew (typed_isNew ht)

end Builder

namespace Build

/-! ### The sizes after the small steps -/

@[simp] lemma report_tree (b : Build) (path : String) (faults : List BuildFault) :
    (b.report path faults).tree = b.tree := rfl

@[simp] lemma linkControl_size (b : Build) (owner child : Nat) :
    (b.linkControl owner child).tree.size = b.tree.size := by
  simp [linkControl]

@[simp] lemma linkProvider_size (b : Build) (owner provider : Nat) :
    (b.linkProvider owner provider).tree.size = b.tree.size := by
  simp [linkProvider]

/-- What is kept when one event is bound is kept when several are. -/
lemma bind_induction {P : Build → Prop} {owner action : Nat} {events : List EventName}
    (hone : ∀ b, ∀ event ∈ events, P b → P (b.bind owner action [event])) {b : Build} (h : P b) :
    P (b.bind owner action events) := by
  induction events generalizing b with
  | nil => exact h
  | cons event rest ih =>
      exact ih (fun b other hother => hone b other (List.mem_cons_of_mem event hother))
        (hone b event List.mem_cons_self h)

@[simp] lemma bind_size (b : Build) (owner action : Nat) (events : List EventName) :
    (b.bind owner action events).tree.size = b.tree.size :=
  bind_induction (P := fun c => c.tree.size = b.tree.size)
    (fun c event _ hc => (c.tree.size_bind owner ⟨event, action⟩).trans hc) rfl

@[simp] lemma claim_size (b : Build) (role : Role) (path : String) (own : Attributes) :
    (b.claim role path own).1.tree = b.tree := by
  rw [claim]
  split
  · rfl
  · dsimp only
    split_ifs <;> rfl
  · rfl

end Build

namespace Builder

/-- Entering a declaration either leaves the tree as it is, or appends the entity that it is described
by and hands out its index. -/
lemma enter_describes (builder : Builder) (role : Role) (owner : Option Nat) (path : String)
    (own : Attributes) (b : Build) :
    ((builder.enter role owner path own b).1.tree = b.tree
        ∧ (builder.enter role owner path own b).2 = none)
      ∨ ∃ id faults e, builder.describe b.tree role owner id own = (faults, some e)
        ∧ (builder.enter role owner path own b).1.tree = b.tree.insert e
        ∧ (builder.enter role owner path own b).2 = some b.tree.size := by
  rw [enter]
  dsimp only
  cases hd : builder.describe (b.claim role path own).1.tree role owner (b.claim role path own).2
      own with
  | mk faults entity =>
      cases entity with
      | none => exact .inl ⟨by simp, rfl⟩
      | some e =>
          rw [Build.claim_size] at hd
          exact .inr ⟨_, _, e, hd, by simp [Build.insert], by simp [Build.insert]⟩

/-- Entering a declaration either leaves the tree as it is, or appends a new entity and hands out
its index. -/
lemma enter_cases (builder : Builder) (role : Role) (owner : Option Nat) (path : String)
    (own : Attributes) (b : Build) :
    ((builder.enter role owner path own b).1.tree = b.tree
        ∧ (builder.enter role owner path own b).2 = none)
      ∨ ∃ id e, (builder.enter role owner path own b).1.tree = b.tree.insert e
        ∧ (builder.enter role owner path own b).2 = some b.tree.size ∧ e.IsNew id role owner := by
  rcases builder.enter_describes role owner path own b with h | ⟨id, faults, e, hd, ht, hi⟩
  · exact .inl h
  · exact .inr ⟨id, e, ht, hi, describe_isNew hd⟩

/-- What is referred to is a provider of the tree. -/
lemma entity?_of_referred? {t : Tree} {own : Attributes} {index : Nat}
    (h : referred? t own = some index) :
    ∃ e, t.entity? index = some e ∧ e.role = .dataProvider := by
  rw [referred?] at h
  split at h
  · split at h
    · rename_i i hi
      split at h
      · rename_i e he
        split_ifs at h with hrole
        rw [← Option.some.inj h]
        exact ⟨e, he, hrole⟩
      · exact absurd h (by simp)
    · exact absurd h (by simp)
  · exact absurd h (by simp)

/-! ### Open entities -/

/-- What holds after a piece of the walk: if it hands out an index, the entity is open now. -/
def Leaves (P : List (Nat × Role) → Build → Prop) (stack : List (Nat × Role)) (role : Role) :
    Build × Option Nat → Prop
  | (build, some index) => P ((index, role) :: stack) build
  | (build, none) => P stack build

/-- The build after a piece of the walk whose index, if it hands one out, is linked. -/
def linked (link : Build → Nat → Build) : Build × Option Nat → Build
  | (build, some index) => link build index
  | (build, none) => build

/-- What is open is closed by linking it. -/
lemma Leaves.closed {P : List (Nat × Role) → Build → Prop} {stack : List (Nat × Role)}
    {role : Role} {result : Build × Option Nat} (hr : Leaves P stack role result)
    (link : Build → Nat → Build)
    (hl : ∀ b index, P ((index, role) :: stack) b → P stack (link b index)) :
    P stack (linked link result) := by
  obtain ⟨build, index⟩ := result
  cases index with
  | none => exact hr
  | some index => exact hl build index hr

/-- The entity on top of a stack owns what enters next. -/
def ownerOf (stack : List (Nat × Role)) : Option Nat := stack.head?.map Prod.fst

/-- What triggers a listed action are events with names in normal form. -/
lemma isNormal_of_triggers {d : Declaration} {faults : List BuildFault} {events : List EventName}
    (h : triggers d = (faults, events)) : ∀ event ∈ events, event.IsNormal := by
  intro event hevent
  unfold triggers at h
  split at h <;> cases h
  · obtain ⟨text, -, htext⟩ := List.mem_filterMap.mp hevent
    exact ⟨text, htext⟩
  · simp at hevent

/-- A property of the stack of open entities and the build that each step of the walk below an entity
keeps, where there are only actions. -/
structure TracksActions (builder : Builder) (P : List (Nat × Role) → Build → Prop) : Prop where
  report : ∀ stack b path faults, P stack b → P stack (b.report path faults)
  enter : ∀ stack b path own, stack ≠ [] → P stack b →
    Leaves P stack .action (builder.enter .action (ownerOf stack) path own b)
  /-- An action is closed by binding it. -/
  bind : ∀ stack b owner role action events, events ≠ [] → (∀ event ∈ events, event.IsNormal) →
    P ((action, .action) :: (owner, role) :: stack) b →
    P ((owner, role) :: stack) (b.bind owner action events)

/-- A property of the stack of open entities and the build that each step of the walk keeps. -/
structure Tracks (builder : Builder) (P : List (Nat × Role) → Build → Prop) : Prop where
  report : ∀ stack b path faults, P stack b → P stack (b.report path faults)
  enter : ∀ stack b role path own, (stack = [] → role = .control) → P stack b →
    Leaves P stack role (builder.enter role (ownerOf stack) path own b)
  /-- A control is closed by listing it below its owner. -/
  linkControl : ∀ stack b owner child,
    P ((child, .control) :: (owner, .control) :: stack) b →
    P ((owner, .control) :: stack) (b.linkControl owner child)
  /-- A provider is closed by listing it below its owner. -/
  linkProvider : ∀ stack b owner provider,
    P ((provider, .dataProvider) :: (owner, .control) :: stack) b →
    P ((owner, .control) :: stack) (b.linkProvider owner provider)
  /-- A provider that is not open is listed once more. -/
  share : ∀ stack b owner provider,
    (∃ e, b.tree.entity? provider = some e ∧ e.role = .dataProvider) →
    P ((owner, .control) :: stack) b →
    P ((owner, .control) :: stack) (b.linkProvider owner provider)
  /-- An action is closed by binding it. -/
  bind : ∀ stack b owner role action events, events ≠ [] → (∀ event ∈ events, event.IsNormal) →
    P ((action, .action) :: (owner, role) :: stack) b →
    P ((owner, role) :: stack) (b.bind owner action events)

namespace TracksActions

variable {builder : Builder} {P : List (Nat × Role) → Build → Prop}

/-! ### The actions below an entity -/

mutual

/-- The walk through an action. -/
theorem action (h : builder.TracksActions P) (owner : Nat) (role : Role) (stack : List (Nat × Role))
    (path : String) (d : Declaration) (b : Build) (hb : P ((owner, role) :: stack) b) :
    Leaves P ((owner, role) :: stack) .action (builder.action owner path d b) := by
  cases d with
  | other => exact h.report _ b path _ hb
  | object own providers actions controls handlers =>
      have he := h.enter ((owner, role) :: stack) b path own (by simp) hb
      rw [Builder.action]
      cases hent : builder.enter .action (some owner) path own b with
      | mk b' index =>
          rw [ownerOf, List.head?_cons, Option.map_some, hent] at he
          cases index with
          | none => exact he
          | some index =>
              have h1 := handlerMap h index .action _ path handlers b' he
              exact actionListing h index .action _ path actions _ h1

/-- The walk through what a declaration does on events. -/
theorem handlerMap (h : builder.TracksActions P) (owner : Nat) (role : Role) (stack : List (Nat × Role))
    (path : String) (hs : Handlers) (b : Build) (hb : P ((owner, role) :: stack) b) :
    P ((owner, role) :: stack) (builder.handlerMap owner path hs b) := by
  cases hs with
  | absent => exact hb
  | trigger names => exact hb
  | malformed => exact h.report _ b path _ hb
  | entries bound => exact handlers h owner role stack (path ++ "/on.") bound b hb

/-- The walk through the events of a handler map. -/
theorem handlers (h : builder.TracksActions P) (owner : Nat) (role : Role) (stack : List (Nat × Role))
    (path : String) (bounds : List (String × Bound)) (b : Build)
    (hb : P ((owner, role) :: stack) b) :
    P ((owner, role) :: stack) (builder.handlers owner path bounds b) := by
  cases bounds with
  | nil => exact hb
  | cons entry rest =>
      obtain ⟨event, bound⟩ := entry
      -- The first event is built before the others.
      refine handlers h owner role stack path rest _ ?_
      cases hname : EventName.ofText? event with
      | none => exact h.report _ b (path ++ event) _ hb
      | some name => exact handler h owner role stack (path ++ event) name ⟨event, hname⟩ bound b hb

/-- The walk through the actions of one event. -/
theorem handler (h : builder.TracksActions P) (owner : Nat) (role : Role) (stack : List (Nat × Role))
    (path : String) (event : EventName) (hevent : event.IsNormal) (bound : Bound) (b : Build)
    (hb : P ((owner, role) :: stack) b) :
    P ((owner, role) :: stack) (builder.handler owner path event bound b) := by
  cases bound with
  | malformed => exact h.report _ b path _ hb
  | actions declarations =>
      exact handlerActions h owner role stack path event hevent 0 declarations b hb

/-- The walk through listed actions of one event. -/
theorem handlerActions (h : builder.TracksActions P) (owner : Nat) (role : Role)
    (stack : List (Nat × Role)) (path : String) (event : EventName) (hevent : event.IsNormal)
    (position : Nat) (ds : List Declaration) (b : Build) (hb : P ((owner, role) :: stack) b) :
    P ((owner, role) :: stack) (builder.handlerActions owner path event position ds b) := by
  cases ds with
  | nil => exact hb
  | cons d rest =>
      have ha := action h owner role stack (itemPath path position) d b hb
      have h1 : P ((owner, role) :: stack) (linked (fun b action => b.bind owner action [event])
          (builder.action owner (itemPath path position) d b)) :=
        ha.closed (fun b action => b.bind owner action [event]) fun b action =>
          h.bind stack b owner role action [event] (by simp) (by simpa using hevent)
      exact handlerActions h owner role stack path event hevent (position + 1) rest _ h1

/-- The walk through the action list of a declaration. -/
theorem actionListing (h : builder.TracksActions P) (owner : Nat) (role : Role)
    (stack : List (Nat × Role)) (path : String) (listing : Listing) (b : Build)
    (hb : P ((owner, role) :: stack) b) :
    P ((owner, role) :: stack) (builder.actionListing owner path listing b) := by
  cases listing with
  | absent => exact hb
  | malformed => exact h.report _ b path _ hb
  | items declarations =>
      exact actions h owner role stack (path ++ "/actions") 0 declarations b hb

/-- The walk through listed actions. -/
theorem actions (h : builder.TracksActions P) (owner : Nat) (role : Role) (stack : List (Nat × Role))
    (path : String) (position : Nat) (ds : List Declaration) (b : Build)
    (hb : P ((owner, role) :: stack) b) :
    P ((owner, role) :: stack) (builder.actions owner path position ds b) := by
  cases ds with
  | nil => exact hb
  | cons d rest =>
      rw [Builder.actions]
      split
      rename_i faults events ht
      have hr := h.report _ b (itemPath path position) faults hb
      dsimp only
      by_cases hev : events = []
      · rw [if_pos hev]
        have h1 := h.report _ _ (itemPath path position)
          [.malformed "actions in an 'actions' list need an 'on' trigger"] hr
        exact actions h owner role stack path (position + 1) rest _ h1
      · rw [if_neg hev]
        have ha := action h owner role stack (itemPath path position) d _ hr
        have h1 := ha.closed (fun b action => b.bind owner action events) fun b action =>
          h.bind stack b owner role action events hev (isNormal_of_triggers ht)
        exact actions h owner role stack path (position + 1) rest _ h1

end

end TracksActions

namespace Tracks

variable {builder : Builder} {P : List (Nat × Role) → Build → Prop}

/-- The steps of the walk below an entity are among its steps. -/
lemma actionSteps (h : builder.Tracks P) : builder.TracksActions P :=
  ⟨h.report, fun stack b path own hne => h.enter stack b .action path own (absurd · hne), h.bind⟩

/-! ### The data providers of a control -/

/-- The walk through a data provider below its owner: a new one is closed, and one that is referred
to is listed once more. -/
theorem provider (h : builder.Tracks P) (owner : Nat) (stack : List (Nat × Role)) (path : String)
    (d : Declaration) (b : Build) (hb : P ((owner, .control) :: stack) b) :
    P ((owner, .control) :: stack) (linked (fun b provider => b.linkProvider owner provider)
      (builder.provider owner path d b)) := by
  cases d with
  | other => exact h.report _ b path _ hb
  | object own providers actions controls handlers =>
      rw [Builder.provider]
      cases hr : referred? b.tree own with
      | some existing =>
          have h1 := h.report _ b path (referenceFaults own) hb
          exact h.share stack _ owner existing (entity?_of_referred? hr) h1
      | none =>
          have he := h.enter ((owner, .control) :: stack) b .dataProvider path own (by simp) hb
          cases hent : builder.enter .dataProvider (some owner) path own b with
          | mk b' index =>
              rw [ownerOf, List.head?_cons, Option.map_some, hent] at he
              cases index with
              | none => exact he
              | some index =>
                  have h1 := h.actionSteps.handlerMap index .dataProvider _ path handlers b' he
                  have h2 := h.actionSteps.actionListing index .dataProvider _ path actions _ h1
                  exact h.linkProvider stack _ owner index h2

/-- The walk through listed data providers. -/
theorem providers (h : builder.Tracks P) (owner : Nat) (stack : List (Nat × Role)) (path : String)
    (position : Nat) (ds : List Declaration) (b : Build) (hb : P ((owner, .control) :: stack) b) :
    P ((owner, .control) :: stack) (builder.providers owner path position ds b) := by
  induction ds generalizing position b with
  | nil => exact hb
  | cons d rest ih =>
      exact ih (position + 1) _ (h.provider owner stack (itemPath path position) d b hb)

/-- The walk through the data provider list of a control. -/
theorem providerListing (h : builder.Tracks P) (owner : Nat) (stack : List (Nat × Role))
    (path : String) (listing : Listing) (b : Build) (hb : P ((owner, .control) :: stack) b) :
    P ((owner, .control) :: stack) (builder.providerListing owner path listing b) := by
  cases listing with
  | absent => exact hb
  | malformed => exact h.report _ b path _ hb
  | items declarations =>
      exact h.providers owner stack (path ++ "/dataProviders") 0 declarations b hb

/-! ### The controls -/

mutual

/-- The walk through a control. -/
theorem control (h : builder.Tracks P) (stack : List (Nat × Role)) (path : String)
    (d : Declaration) (b : Build) (hb : P stack b) :
    Leaves P stack .control (builder.control (ownerOf stack) path d b) := by
  cases d with
  | other => exact h.report _ b path _ hb
  | object own providers actions controls handlers =>
      have he := h.enter stack b .control path own (fun _ => rfl) hb
      rw [Builder.control]
      cases hent : builder.enter .control (ownerOf stack) path own b with
      | mk b' index =>
          rw [hent] at he
          cases index with
          | none => exact he
          | some index =>
              have h1 := h.providerListing index stack path providers b' he
              have h2 := h.actionSteps.handlerMap index .control stack path handlers _ h1
              have h3 := h.actionSteps.actionListing index .control stack path actions _ h2
              exact controlListing h index stack path controls _ h3

/-- The walk through the child list of a control. -/
theorem controlListing (h : builder.Tracks P) (owner : Nat) (stack : List (Nat × Role))
    (path : String) (listing : Listing) (b : Build) (hb : P ((owner, .control) :: stack) b) :
    P ((owner, .control) :: stack) (builder.controlListing owner path listing b) := by
  cases listing with
  | absent => exact hb
  | malformed => exact h.report _ b path _ hb
  | items declarations => exact controls h owner stack (path ++ "/controls") 0 declarations b hb

/-- The walk through listed controls. -/
theorem controls (h : builder.Tracks P) (owner : Nat) (stack : List (Nat × Role)) (path : String)
    (position : Nat) (ds : List Declaration) (b : Build) (hb : P ((owner, .control) :: stack) b) :
    P ((owner, .control) :: stack) (builder.controls owner path position ds b) := by
  cases ds with
  | nil => exact hb
  | cons d rest =>
      have hc := control h ((owner, .control) :: stack) (itemPath path position) d b hb
      have h1 : P ((owner, .control) :: stack) (linked (fun b child => b.linkControl owner child)
          (builder.control (some owner) (itemPath path position) d b)) :=
        hc.closed (fun b child => b.linkControl owner child) fun b child =>
          h.linkControl stack b owner child
      exact controls h owner stack path (position + 1) rest _ h1

end

/-- **The walk through a document** ends with nothing open, if there is no root, or else with the
root alone open, which is then named. -/
theorem build (h : builder.Tracks P) (document : Document)
    (h0 : P [] { tree := { app := document.app, session := document.session } }) :
    P [] (builder.build document)
      ∨ ∃ b root, P [(root, .control)] b
        ∧ builder.build document = { b with tree := { b.tree with root := some root } } := by
  have hc := h.control [] "view" (Declaration.ofJson (.object document.rootNode)) _ h0
  rw [Builder.build]
  dsimp only
  change Leaves P [] .control (builder.control none "view" _ _) at hc
  split
  · rename_i b root hb
    rw [hb] at hc
    exact .inr ⟨b, root, hc, rfl⟩
  · rename_i b hb
    rw [hb] at hc
    exact .inl hc

end Tracks

/-! ### Properties that do not look at the stack -/

/-- A property of builds that each of the five steps of the walk keeps. -/
structure Keeps (builder : Builder) (P : Build → Prop) : Prop where
  report : ∀ b path faults, P b → P (b.report path faults)
  enter : ∀ b role owner path own, P b → P (builder.enter role owner path own b).1
  linkControl : ∀ b owner child, owner < b.tree.size → child < b.tree.size → P b →
    P (b.linkControl owner child)
  linkProvider : ∀ b owner provider, owner < b.tree.size → provider < b.tree.size → P b →
    P (b.linkProvider owner provider)
  bind : ∀ b owner action events, owner < b.tree.size → action < b.tree.size →
    (∀ event ∈ events, event.IsNormal) → P b → P (b.bind owner action events)

namespace Keeps

variable {builder : Builder} {P : Build → Prop}

/-- The walk keeps such a property, and open entities are entities of the tree. -/
lemma tracks (h : builder.Keeps P) :
    builder.Tracks fun stack b => (∀ entry ∈ stack, entry.1 < b.tree.size) ∧ P b where
  report _ b path faults hb := ⟨hb.1, h.report b path faults hb.2⟩
  enter stack b role path own _ hb := by
    have hP := h.enter b role (ownerOf stack) path own hb.2
    have hcases := builder.enter_cases role (ownerOf stack) path own b
    cases hent : builder.enter role (ownerOf stack) path own b with
    | mk b' index =>
        rw [hent] at hP hcases
        rcases hcases with ⟨ht, hi⟩ | ⟨_, e, ht, hi, -⟩
        · cases hi
          exact ⟨fun entry hentry => ht ▸ hb.1 entry hentry, hP⟩
        · cases hi
          refine ⟨fun entry hentry => ?_, hP⟩
          rw [ht, Tree.size_insert]
          obtain rfl | hentry := List.mem_cons.mp hentry
          · exact Nat.lt_succ_self _
          · exact (hb.1 entry hentry).trans (Nat.lt_succ_self _)
  linkControl stack b owner child hb := by
    rw [Build.linkControl_size]
    have ho := hb.1 (owner, .control) (by simp)
    have hc := hb.1 (child, .control) (by simp)
    exact ⟨fun entry hentry => hb.1 entry (List.mem_cons_of_mem _ hentry),
      h.linkControl b owner child ho hc hb.2⟩
  linkProvider stack b owner provider hb := by
    rw [Build.linkProvider_size]
    have ho := hb.1 (owner, .control) (by simp)
    have hp := hb.1 (provider, .dataProvider) (by simp)
    exact ⟨fun entry hentry => hb.1 entry (List.mem_cons_of_mem _ hentry),
      h.linkProvider b owner provider ho hp hb.2⟩
  share stack b owner provider hp hb := by
    rw [Build.linkProvider_size]
    obtain ⟨e, he, _⟩ := hp
    have ho := hb.1 (owner, .control) (by simp)
    exact ⟨hb.1, h.linkProvider b owner provider ho (Tree.lt_size_iff.mpr ⟨e, he⟩) hb.2⟩
  bind stack b owner role action events _ hnormal hb := by
    rw [Build.bind_size]
    have ho := hb.1 (owner, role) (by simp)
    have ha := hb.1 (action, .action) (by simp)
    exact ⟨fun entry hentry => hb.1 entry (List.mem_cons_of_mem _ hentry),
      h.bind b owner action events ho ha hnormal hb.2⟩

/-- **The walk keeps it**: a property that all steps of the walk keep, and that naming the root
keeps, holds of the build of a document if it holds of the empty tree with its two stores. -/
theorem build (h : builder.Keeps P)
    (hroot : ∀ b root, P b → P { b with tree := { b.tree with root := some root } })
    (document : Document)
    (h0 : P { tree := { app := document.app, session := document.session } }) :
    P (builder.build document) := by
  rcases h.tracks.build document ⟨by simp, h0⟩ with hb | ⟨b, root, hb, heq⟩
  · exact hb.2
  · rw [heq]
    exact hroot b root hb.2

end Keeps

/-! ### Properties of single entities -/

/-- A property that all entities have when they are described, and that does not depend on what they
list, is kept by each step. -/
lemma keeps_forall {builder : Builder} {Q : Entity → Prop}
    (hdescribe : ∀ {t role owner id own faults e},
      builder.describe t role owner id own = (faults, some e) → Q e)
    (hlists : ∀ e controls dataProviders bindings, Q e →
      Q { e with controls := controls, dataProviders := dataProviders, bindings := bindings }) :
    builder.Keeps fun b => ∀ i e, b.tree.entity? i = some e → Q e where
  report _ _ _ h := h
  enter b role owner path own h := by
    rcases builder.enter_describes role owner path own b with ⟨ht, -⟩ | ⟨id, faults, e, hd, ht, -⟩
    · rw [ht]
      exact h
    · intro i x hx
      rw [ht, Tree.entity?_insert] at hx
      split_ifs at hx
      · rw [← Option.some.inj hx]
        exact hdescribe hd
      · exact h i x hx
  linkControl _ owner _ _ _ h := Tree.forall_modify h owner fun e he => hlists e _ _ _ he
  linkProvider _ owner _ _ _ h := Tree.forall_modify h owner fun e he => hlists e _ _ _ he
  bind _ owner _ _ _ _ _ h :=
    Build.bind_induction (P := fun c => ∀ i e, c.tree.entity? i = some e → Q e)
      (fun _ _ _ hc => Tree.forall_modify hc owner fun e he => hlists e _ _ _ he) h

/-- **All entities of a built tree have it**: a property of what is described that does not depend on
what is listed. -/
theorem forall_build {builder : Builder} {Q : Entity → Prop}
    (hdescribe : ∀ {t role owner id own faults e},
      builder.describe t role owner id own = (faults, some e) → Q e)
    (hlists : ∀ e controls dataProviders bindings, Q e →
      Q { e with controls := controls, dataProviders := dataProviders, bindings := bindings })
    (document : Document) : ∀ i e, (builder.build document).tree.entity? i = some e → Q e :=
  (keeps_forall hdescribe hlists).build (fun _ _ h => h) document fun i e he => by
    simp [Tree.entity?] at he

end Builder

end Componentry

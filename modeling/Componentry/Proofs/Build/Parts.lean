import Mathlib.Tactic
import Componentry.Proofs.Build.Walk
/-!
# The parts of a declaration

Below an entity the walk comes to the elements of the lists of its declaration and to the actions of
its handler map, one after the other, and to sections and entries that are malformed and are
reported with all that is in them.  `Declaration.parts` lists them in the order of the walk, each
with its path.

The walk below an entity settles the parts in turn: `Builder.settle` builds one of them and links
what it becomes, and `Builder.fill` goes through all.  The walk through a control, a provider or an
action is to enter it and to fill it (`Builder.walk_walked`).  A declaration that is not made into
an entity leaves the tree as it is and a report at its own path (`Build.Fails`), and nothing in it
is looked at.
-/

namespace Componentry

/-- Where an element of a declaration stands. -/
inductive Slot where
  | control
  | provider
  /-- In an action list, where an action names the events that trigger it. -/
  | listed
  /-- Under an event of a handler map. -/
  | bound (event : EventName)

namespace Slot

/-- The role of the entities of a slot. -/
def role : Slot → Role
  | .control => .control
  | .provider => .dataProvider
  | .listed | .bound _ => .action

/-- The events that an element is bound to, and what is wrong with the triggers it names. -/
def triggers : Slot → Declaration → List BuildFault × List EventName
  | .control, _ | .provider, _ => ([], [])
  | .listed, d => Builder.triggers d
  | .bound event, _ => ([], [event])

/-- Whether an element is an action that no event triggers. -/
def Untriggered (slot : Slot) (d : Declaration) : Prop :=
  slot.role = .action ∧ (slot.triggers d).2 = []

instance (slot : Slot) (d : Declaration) : Decidable (slot.Untriggered d) :=
  inferInstanceAs (Decidable (_ ∧ _))

/-- The provider that an element refers to instead of declaring one. -/
def referred? : Slot → Tree → Declaration → Option Nat
  | .provider, t, .object own _ _ _ _ => Builder.referred? t own
  | _, _, _ => none

end Slot

/-- What the walk comes to below an entity. -/
inductive Part where
  /-- An element of a list, or an action of a handler map. -/
  | element (slot : Slot) (path : String) (declaration : Declaration)
  /-- A malformed section or entry, and the actions that are lost with it. -/
  | refused (path reason : String) (lost : List Declaration)

/-! ### In the order of the walk -/

/-- The items of a list, each with its path. -/
def Part.items (slot : Slot) (path : String) (position : Nat) (ds : List Declaration) : List Part :=
  (ds.zipIdx position).map fun item => .element slot (Builder.itemPath path item.2) item.1

/-- The parts of a section that should hold a list. -/
def Listing.parts (slot : Slot) (path key : String) : Listing → List Part
  | .absent => []
  | .malformed => [.refused path ("'" ++ key ++ "' must be a list") []]
  | .items ds => Part.items slot (path ++ ("/" ++ key)) 0 ds

/-- The actions that are bound to one event. -/
def Bound.declarations : Bound → List Declaration
  | .malformed => []
  | .actions ds => ds

/-- The parts of what is bound to one event. -/
def Bound.parts (path : String) (event : EventName) : Bound → List Part
  | .malformed => [.refused path "bindings must be an action or a list of actions" []]
  | .actions ds => Part.items (.bound event) path 0 ds

/-- The parts of one entry of a handler map. -/
def Handlers.entryParts (path event : String) (bound : Bound) : List Part :=
  match EventName.ofText? event with
  | none => [.refused path ("'" ++ event ++ "' is not a valid event name") bound.declarations]
  | some name => bound.parts path name

/-- The parts of what a declaration does on events. -/
def Handlers.parts (path : String) : Handlers → List Part
  | .absent | .trigger _ => []
  | .malformed => [.refused path "'on' must be an event map or a trigger list" []]
  | .entries bounds =>
    bounds.flatMap fun entry => entryParts (path ++ "/on." ++ entry.1) entry.1 entry.2

/-- The parts of a declaration that an entity of a role is made of.  Only a control has child
controls and data providers. -/
def Declaration.parts (role : Role) (path : String) : Declaration → List Part
  | .other => []
  | .object _ providers actions controls handlers =>
    match role with
    | .control => providers.parts .provider path "dataProviders" ++ handlers.parts path
        ++ actions.parts .listed path "actions" ++ controls.parts .control path "controls"
    | .dataProvider | .action => handlers.parts path ++ actions.parts .listed path "actions"

/-- The sections of an object are its first members with their keys. -/
lemma Declaration.ofJson_object (members : Attributes) :
    Declaration.ofJson (.object members) = .object members
      (((members.lookup "dataProviders").map listing).getD .absent)
      (((members.lookup "actions").map listing).getD .absent)
      (((members.lookup "controls").map listing).getD .absent)
      (((members.lookup "on").map handlers).getD .absent) := by
  rw [ofJson]
  induction members with
  | nil => rfl
  | cons member rest ih =>
      obtain ⟨key, v⟩ := member
      simp only [object.injEq, true_and] at ih
      obtain ⟨hproviders, hactions, hcontrols, hhandlers⟩ := ih
      simp only [ofMembers, Keyed.lookup, object.injEq, true_and]
      split_ifs <;> simp_all

/-- Links an entity to its owner as its slot has it. -/
def Build.attach (b : Build) (owner : Nat) (slot : Slot) (events : List EventName) (index : Nat) :
    Build :=
  match slot with
  | .control => b.linkControl owner index
  | .provider => b.linkProvider owner index
  | .listed | .bound _ => b.bind owner index events

/-- What has become of a declaration that is not made into an entity: the tree is as it was, and
there is a report at the path of the declaration, and no other. -/
structure Build.Fails (path : String) (b b' : Build) : Prop where
  tree_eq : b'.tree = b.tree
  reported : ∃ faults : List BuildFault,
    faults ≠ [] ∧ b'.problems = b.problems ++ faults.map (BuildProblem.mk path)

namespace Build

@[simp] lemma report_nil (b : Build) (path : String) : b.report path [] = b := by
  simp [report]

lemma fails_malformed (b : Build) (path reason : String) : Fails path b (b.malformed path reason) :=
  ⟨rfl, _, List.cons_ne_nil _ _, rfl⟩

/-- A failure after other reports at the path. -/
lemma Fails.of_report {path : String} {b b' : Build} {faults : List BuildFault}
    (h : Fails path (b.report path faults) b') : Fails path b b' := by
  obtain ⟨more, hne, hmore⟩ := h.reported
  refine ⟨h.tree_eq, faults ++ more, by simp [hne], ?_⟩
  rw [hmore, report, List.map_append, List.append_assoc]

/-- Claiming an id reports faults at the path of the declaration only. -/
lemma claim_reported (b : Build) (role : Role) (path : String) (own : Attributes) :
    ∃ faults : List BuildFault,
      (b.claim role path own).1.problems = b.problems ++ faults.map (BuildProblem.mk path) := by
  rw [claim]
  split
  · exact ⟨[], by simp [generate]⟩
  · dsimp only
    split_ifs
    · exact ⟨[], by simp [generate]⟩
    · exact ⟨_, rfl⟩
    · exact ⟨[], by simp⟩
  · exact ⟨_, rfl⟩

end Build

/-- An entity that has been made, and the declaration it was made of. -/
structure Made where
  index : Nat
  role : Role
  path : String
  declaration : Declaration
  /-- The build when the entity has entered the tree, before anything below it is built. -/
  entered : Build

/-- The parts of the declaration that an entity was made of. -/
def Made.parts (m : Made) : List Part := m.declaration.parts m.role m.path

namespace Builder

/-! ### One part after the other -/

/-- The walk through an element. -/
def walk (builder : Builder) (owner : Nat) (slot : Slot) (path : String) (d : Declaration)
    (b : Build) : Build × Option Nat :=
  match slot with
  | .control => builder.control (some owner) path d b
  | .provider => builder.provider owner path d b
  | .listed | .bound _ => builder.action owner path d b

/-- Settles one part below its owner: builds an element and links what it becomes. -/
def settle (builder : Builder) (owner : Nat) (b : Build) : Part → Build
  | .refused path reason _ => b.malformed path reason
  | .element slot path d =>
    let reported := b.report path (slot.triggers d).1
    if slot.Untriggered d then
      reported.malformed path "actions in an 'actions' list need an 'on' trigger"
    else
      linked (fun b index => b.attach owner slot (slot.triggers d).2 index)
        (builder.walk owner slot path d reported)

/-- Settles the parts below an owner in turn. -/
def fill (builder : Builder) (owner : Nat) (parts : List Part) (b : Build) : Build :=
  parts.foldl (builder.settle owner) b

/-- The entity that a declaration of a role is made into. -/
def make? (builder : Builder) (role : Role) (owner : Option Nat) (path : String) (d : Declaration)
    (b : Build) : Option Made :=
  match d with
  | .other => none
  | .object own _ _ _ _ =>
    match builder.enter role owner path own b with
    | (_, none) => none
    | (entered, some index) => some { index, role, path, declaration := d, entered }

/-- The entity that an element is made into. -/
def element? (builder : Builder) (owner : Nat) (slot : Slot) (path : String) (d : Declaration)
    (b : Build) : Option Made :=
  if slot.Untriggered d ∨ (slot.referred? b.tree d).isSome then none
  else builder.make? slot.role (some owner) path d (b.report path (slot.triggers d).1)

variable {builder : Builder} {owner : Nat} {path : String}

@[simp] lemma fill_nil (builder : Builder) (owner : Nat) (b : Build) :
    builder.fill owner [] b = b := rfl

@[simp] lemma fill_cons (builder : Builder) (owner : Nat) (part : Part) (parts : List Part)
    (b : Build) : builder.fill owner (part :: parts) b
      = builder.fill owner parts (builder.settle owner b part) := rfl

lemma fill_append (builder : Builder) (owner : Nat) (parts more : List Part) (b : Build) :
    builder.fill owner (parts ++ more) b
      = builder.fill owner more (builder.fill owner parts b) := List.foldl_append

/-! ### The lists of the walk -/

lemma items_cons (slot : Slot) (path : String) (position : Nat) (d : Declaration)
    (ds : List Declaration) : Part.items slot path position (d :: ds)
      = .element slot (itemPath path position) d :: Part.items slot path (position + 1) ds := rfl

/-- Outside of action lists an element is just built and linked. -/
lemma fill_items_cons {slot : Slot} (h : slot ≠ .listed) (position : Nat) (d : Declaration)
    (ds : List Declaration) (b : Build) :
    builder.fill owner (Part.items slot path position (d :: ds)) b
      = builder.fill owner (Part.items slot path (position + 1) ds)
        (linked (fun b index => b.attach owner slot (slot.triggers d).2 index)
          (builder.walk owner slot (itemPath path position) d b)) := by
  have hslot : (slot.triggers d).1 = [] ∧ ¬ slot.Untriggered d := by
    cases slot with
    | listed => exact absurd rfl h
    | control | provider | bound _ => simp [Slot.triggers, Slot.Untriggered, Slot.role]
  rw [items_cons, fill_cons, settle, if_neg hslot.2, hslot.1, Build.report_nil]

lemma controls_eq_fill (position : Nat) (ds : List Declaration) (b : Build) :
    builder.controls owner path position ds b
      = builder.fill owner (Part.items .control path position ds) b := by
  induction ds generalizing position b with
  | nil => rfl
  | cons d rest ih =>
      rw [fill_items_cons (by simp), ← ih]
      rfl

lemma providers_eq_fill (position : Nat) (ds : List Declaration) (b : Build) :
    builder.providers owner path position ds b
      = builder.fill owner (Part.items .provider path position ds) b := by
  induction ds generalizing position b with
  | nil => rfl
  | cons d rest ih =>
      rw [fill_items_cons (by simp), ← ih]
      rfl

lemma handlerActions_eq_fill (event : EventName) (position : Nat) (ds : List Declaration)
    (b : Build) : builder.handlerActions owner path event position ds b
      = builder.fill owner (Part.items (.bound event) path position ds) b := by
  induction ds generalizing position b with
  | nil => rfl
  | cons d rest ih =>
      rw [fill_items_cons (by simp), ← ih]
      rfl

lemma actions_eq_fill (position : Nat) (ds : List Declaration) (b : Build) :
    builder.actions owner path position ds b
      = builder.fill owner (Part.items .listed path position ds) b := by
  induction ds generalizing position b with
  | nil => rfl
  | cons d rest ih =>
      rw [items_cons, fill_cons, ← ih, settle, Builder.actions]
      simp only [Slot.Untriggered, Slot.role, Slot.triggers, true_and]
      rfl

/-! ### The sections of the walk -/

lemma handler_eq_fill (event : EventName) (bound : Bound) (b : Build) :
    builder.handler owner path event bound b = builder.fill owner (bound.parts path event) b := by
  cases bound with
  | malformed => rfl
  | actions ds => exact handlerActions_eq_fill event 0 ds b

lemma handlers_eq_fill (bounds : List (String × Bound)) (b : Build) :
    builder.handlers owner path bounds b = builder.fill owner
      (bounds.flatMap fun entry => Handlers.entryParts (path ++ entry.1) entry.1 entry.2) b := by
  induction bounds generalizing b with
  | nil => rfl
  | cons entry rest ih =>
      obtain ⟨event, bound⟩ := entry
      rw [List.flatMap_cons, fill_append, ← ih, Builder.handlers, Handlers.entryParts]
      cases EventName.ofText? event with
      | none => rfl
      | some name =>
          dsimp only
          rw [handler_eq_fill]

lemma handlerMap_eq_fill (hs : Handlers) (b : Build) :
    builder.handlerMap owner path hs b = builder.fill owner (hs.parts path) b := by
  cases hs with
  | absent | trigger _ | malformed => rfl
  | entries bounds => exact handlers_eq_fill bounds b

lemma actionListing_eq_fill (listing : Listing) (b : Build) :
    builder.actionListing owner path listing b
      = builder.fill owner (listing.parts .listed path "actions") b := by
  cases listing with
  | absent | malformed => rfl
  | items ds => exact actions_eq_fill 0 ds b

lemma providerListing_eq_fill (listing : Listing) (b : Build) :
    builder.providerListing owner path listing b
      = builder.fill owner (listing.parts .provider path "dataProviders") b := by
  cases listing with
  | absent | malformed => rfl
  | items ds => exact providers_eq_fill 0 ds b

lemma controlListing_eq_fill (listing : Listing) (b : Build) :
    builder.controlListing owner path listing b
      = builder.fill owner (listing.parts .control path "controls") b := by
  cases listing with
  | absent | malformed => rfl
  | items ds => exact controls_eq_fill 0 ds b

/-! ### The walk through one declaration -/

/-- A declaration that is described by nothing has a fault. -/
lemma typed_faults_ne_nil {role : Role} {id : String} {own : Attributes} {faults : List BuildFault}
    (h : builder.typed role id own = (faults, none)) : faults ≠ [] := by
  rw [typed] at h
  split at h
  · cases h
    simp
  · dsimp only at h
    split at h
    · cases h
    · split at h <;> cases h
      simp

/-- Entering a declaration reports faults at its path only, and some fault if it does not enter. -/
lemma enter_reported (builder : Builder) (role : Role) (owner : Option Nat) (path : String)
    (own : Attributes) (b : Build) : ∃ faults : List BuildFault,
      (builder.enter role owner path own b).1.problems
        = b.problems ++ faults.map (BuildProblem.mk path)
      ∧ ((builder.enter role owner path own b).2 = none → faults ≠ []) := by
  obtain ⟨claimed, hclaimed⟩ := b.claim_reported role path own
  have hreported : ∀ faults, ((b.claim role path own).1.report path faults).problems
      = b.problems ++ (claimed ++ faults).map (BuildProblem.mk path) := by
    intro faults
    rw [Build.report, hclaimed, List.map_append, List.append_assoc]
  rw [enter]
  dsimp only
  split
  · rename_i faults hd
    have hne : faults ≠ [] := by
      rw [describe] at hd
      split at hd
      · rename_i ht
        cases hd
        exact typed_faults_ne_nil ht
      · cases hd
    exact ⟨claimed ++ faults, hreported faults, fun _ => by simp [hne]⟩
  · rename_i faults e hd
    exact ⟨claimed ++ faults, hreported faults, by simp⟩

/-- A declaration that does not enter fails. -/
lemma enter_fails (builder : Builder) {role : Role} {owner : Option Nat} {path : String}
    {own : Attributes} {b : Build} (h : (builder.enter role owner path own b).2 = none) :
    Build.Fails path b (builder.enter role owner path own b).1 := by
  obtain ⟨faults, hfaults, hne⟩ := builder.enter_reported role owner path own b
  refine ⟨?_, faults, hne h, hfaults⟩
  rcases builder.enter_cases role owner path own b with ⟨ht, -⟩ | ⟨_, _, -, hi, -⟩
  · exact ht
  · simp [h] at hi

/-- The walk through a declaration that has been entered: if it has become an entity, its parts are
settled. -/
def filled (builder : Builder) (role : Role) (path : String) (d : Declaration) :
    Build × Option Nat → Build × Option Nat
  | (b, none) => (b, none)
  | (b, some index) => (builder.fill index (d.parts role path) b, some index)

section Objects

variable {own : Attributes} {providers actions controls : Listing} {handlers : Handlers} {b : Build}

lemma control_object (owner : Option Nat) :
    builder.control owner path (.object own providers actions controls handlers) b
      = builder.filled .control path (.object own providers actions controls handlers)
        (builder.enter .control owner path own b) := by
  rw [Builder.control]
  cases builder.enter .control owner path own b with
  | mk b' index =>
      cases index with
      | none => rfl
      | some index =>
          dsimp only
          rw [filled, Declaration.parts, fill_append, fill_append, fill_append,
            controlListing_eq_fill, actionListing_eq_fill, handlerMap_eq_fill,
            providerListing_eq_fill]

lemma provider_object (h : Builder.referred? b.tree own = none) :
    builder.provider owner path (.object own providers actions controls handlers) b
      = builder.filled .dataProvider path (.object own providers actions controls handlers)
        (builder.enter .dataProvider (some owner) path own b) := by
  rw [Builder.provider, h]
  cases builder.enter .dataProvider (some owner) path own b with
  | mk b' index =>
      cases index with
      | none => rfl
      | some index =>
          dsimp only
          rw [filled, Declaration.parts, fill_append, actionListing_eq_fill, handlerMap_eq_fill]

lemma action_object :
    builder.action owner path (.object own providers actions controls handlers) b
      = builder.filled .action path (.object own providers actions controls handlers)
        (builder.enter .action (some owner) path own b) := by
  rw [Builder.action]
  cases builder.enter .action (some owner) path own b with
  | mk b' index =>
      cases index with
      | none => rfl
      | some index =>
          dsimp only
          rw [filled, Declaration.parts, fill_append, actionListing_eq_fill, handlerMap_eq_fill]

/-- The walk through an object that refers to nothing: it is entered and filled. -/
lemma walk_object {slot : Slot}
    (h : slot.referred? b.tree (.object own providers actions controls handlers) = none) :
    builder.walk owner slot path (.object own providers actions controls handlers) b
      = builder.filled slot.role path (.object own providers actions controls handlers)
        (builder.enter slot.role (some owner) path own b) := by
  cases slot with
  | control => exact control_object _
  | provider => exact provider_object h
  | listed | bound _ => exact action_object

end Objects

/-- What the walk through a declaration leaves: an entity is made and filled, or the declaration
fails. -/
def Walked (builder : Builder) (role : Role) (owner : Option Nat) (path : String) (d : Declaration)
    (b : Build) (result : Build × Option Nat) : Prop :=
  (∃ m, builder.make? role owner path d b = some m
      ∧ result = (builder.fill m.index m.parts m.entered, some m.index))
    ∨ builder.make? role owner path d b = none ∧ result.2 = none ∧ Build.Fails path b result.1

lemma walked_other (role : Role) (owner : Option Nat) (b : Build) (reason : String) :
    builder.Walked role owner path .other b (b.malformed path reason, none) :=
  .inr ⟨rfl, rfl, b.fails_malformed path reason⟩

/-- To enter a declaration and then to fill it. -/
lemma walked_filled (role : Role) (owner : Option Nat) (own : Attributes)
    (providers actions controls : Listing) (handlers : Handlers) (b : Build) :
    builder.Walked role owner path (.object own providers actions controls handlers) b
      (builder.filled role path (.object own providers actions controls handlers)
        (builder.enter role owner path own b)) := by
  have hfails : (builder.enter role owner path own b).2 = none →
      Build.Fails path b (builder.enter role owner path own b).1 := builder.enter_fails
  rw [Walked, make?]
  cases hent : builder.enter role owner path own b with
  | mk entered index =>
      rw [hent] at hfails
      cases index with
      | none => exact .inr ⟨rfl, rfl, hfails rfl⟩
      | some index => exact .inl ⟨_, rfl, rfl⟩

lemma control_walked (builder : Builder) (owner : Option Nat) (path : String) (d : Declaration)
    (b : Build) : builder.Walked .control owner path d b (builder.control owner path d b) := by
  cases d with
  | other => exact walked_other _ _ _ _
  | object own providers actions controls handlers =>
      rw [control_object]
      exact walked_filled _ _ _ _ _ _ _ _

/-- The walk through an element that refers to nothing. -/
lemma walk_walked {slot : Slot} {d : Declaration} {b : Build} (h : slot.referred? b.tree d = none) :
    builder.Walked slot.role (some owner) path d b (builder.walk owner slot path d b) := by
  cases d with
  | other => cases slot <;> exact walked_other _ _ _ _
  | object own providers actions controls handlers =>
      rw [walk_object h]
      exact walked_filled _ _ _ _ _ _ _ _

end Builder

end Componentry

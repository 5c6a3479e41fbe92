import Componentry.Category
import Componentry.Component.Action
import Componentry.Component.DataProvider
/-!
# The component tree

A `Tree` holds the entities of a session in the order in which they were built; an entity is
referred to by its position.  Entities own child controls, data providers and bindings of events to
actions.  Beside the entities the tree holds the two stores, `app` and `session`.

Ids are given to the first entity that asks: `insert` registers an id unless it is taken, `find?`
looks it up.  `bind` is the only way to a binding, and it declares the event.
-/

namespace Componentry

namespace Role

/-- All roles. -/
def all : List Role := [.control, .dataProvider, .action]

/-- The name of a role in values. -/
def name : Role → String
  | .control => "control"
  | .dataProvider => "data_provider"
  | .action => "action"

/-- The role with exactly this name. -/
def ofName? (name : String) : Option Role :=
  all.find? fun role => role.name = name

/-- The category in which the types of a role are registered. -/
def category : Role → Category
  | .control => .control
  | .dataProvider => .dataProvider
  | .action => .action

/-- What generated ids start with. -/
def idPrefix : Role → String
  | .control => "control"
  | .dataProvider => "data-provider"
  | .action => "action"

end Role

/-- The behaviour of an entity; an entity without a type has none. -/
inductive Behaviour where
  | none
  | control (control : Control)
  | dataProvider (provider : DataProvider)
  | action (action : Action)

namespace Behaviour

/-- The control, if it is one. -/
def control? : Behaviour → Option Control
  | .control c => some c
  | _ => Option.none

/-- The data provider, if it is one. -/
def dataProvider? : Behaviour → Option DataProvider
  | .dataProvider p => some p
  | _ => Option.none

/-- The action, if it is one. -/
def action? : Behaviour → Option Action
  | .action a => some a
  | _ => Option.none

/-- Whether there is no behaviour. -/
def isNone : Behaviour → Bool
  | .none => true
  | _ => false

/-- Whether actions bound to an entity of this behaviour may repeat. -/
def supportsRepetition : Behaviour → Bool
  | .control c => c.supportsRepetition
  | .dataProvider p => p.supportsRepetition
  | .action _ | .none => false

end Behaviour

/-- An event bound to the action at an index. -/
structure Binding where
  event : EventName
  action : Nat
  deriving DecidableEq, Repr

/-- The class name of entities without a type. -/
def dummyClassName : String := "IXDummyDataModelEntity"

/-- A node, a data provider or an action; durations are in microseconds. -/
structure Entity where
  id : String
  role : Role
  typeName : Option String := none
  className : String := dummyClassName
  behaviour : Behaviour := .none
  attributes : Attributes := []
  parent : Option Nat := none
  controls : List Nat := []
  dataProviders : List Nat := []
  bindings : List Binding := []
  /-- The target of an action as it was declared. -/
  target : Option String := none
  /-- The `if` gate as it was declared. -/
  condition : Option Json := none
  /-- The `enabled` gate as it was declared. -/
  enabled : Option Json := none
  /-- How long an action waits before it runs. -/
  delay : Option Nat := none
  /-- The interval at which an action repeats. -/
  repeatDelay : Option Nat := none
  /-- Whether the entity was hidden when it was built; it then delivers no events. -/
  suppressed : Bool := false
  state : LifecycleState := .idle
  /-- What a data provider loaded last. -/
  payload : Option Json := none

/-- All entities of a session and its two stores. -/
structure Tree where
  entities : List Entity := []
  /-- The index of the entity that is addressed by an id. -/
  ids : Keyed String Nat := []
  root : Option Nat := none
  app : Attributes := []
  session : Attributes := []
  /-- The events that some entity binds. -/
  declared : List EventName := []

namespace Tree

/-- How many entities there are. -/
def size (tree : Tree) : Nat := tree.entities.length

/-- The entity at an index. -/
def entity? (tree : Tree) (index : Nat) : Option Entity := tree.entities[index]?

/-- The index of the entity that an id addresses. -/
def find? (tree : Tree) (id : String) : Option Nat := tree.ids.lookup id

/-- The entity that an id addresses. -/
def byId? (tree : Tree) (id : String) : Option Entity :=
  (tree.find? id).bind tree.entity?

/-- Whether an id addresses an entity. -/
def isTaken (tree : Tree) (id : String) : Bool := tree.ids.contains id

/-- Appends an entity, whose index is the size before; its id is registered unless it is taken. -/
def insert (tree : Tree) (entity : Entity) : Tree :=
  { tree with
    entities := tree.entities ++ [entity]
    ids := tree.ids.insertNew entity.id tree.size }

/-- Changes the entity at an index. -/
def modify (tree : Tree) (index : Nat) (f : Entity → Entity) : Tree :=
  { tree with entities := tree.entities.modify index f }

/-- Adds a binding to an entity and declares its event. -/
def bind (tree : Tree) (owner : Nat) (binding : Binding) : Tree :=
  { tree.modify owner fun entity => { entity with bindings := entity.bindings ++ [binding] } with
    declared :=
      if binding.event ∈ tree.declared then tree.declared else tree.declared ++ [binding.event] }

/-- Whether some entity binds an event. -/
def declares (tree : Tree) (event : EventName) : Bool := event ∈ tree.declared

/-- The actions that an entity binds to an event, in the order of its bindings. -/
def boundActions (tree : Tree) (owner : Nat) (event : EventName) : List Nat :=
  match tree.entity? owner with
  | none => []
  | some entity => (entity.bindings.filter fun b => b.event = event).map Binding.action

/-- Merges changes into a store, or into an entity, whose control then configures itself. -/
def merge (tree : Tree) (place : Place) (changes : Attributes) : Tree :=
  match place with
  | .app => { tree with app := tree.app.extend changes }
  | .session => { tree with session := tree.session.extend changes }
  | .entity index => tree.modify index fun entity =>
    let merged := entity.attributes.extend changes
    { entity with
      attributes := match entity.behaviour.control? with
        | some control => control.configure merged
        | none => merged }

/-- An entity as an action sees it. -/
def targetEntity (index : Nat) (entity : Entity) : TargetEntity where
  index
  id := entity.id
  role := entity.role
  functions := entity.behaviour.control?.map Control.functions
  loads := entity.behaviour.dataProvider?.isSome

/-- What a declared target is: `app` and `session` name the stores, any other text an entity. -/
def resolveTarget (tree : Tree) (declared : Option String) : Except ActionError Target :=
  match (declared.map Text.trim).filter (· ≠ "") with
  | none => .error .missingTarget
  | some "app" => .ok .app
  | some "session" => .ok .session
  | some id =>
    match tree.find? id with
    | none => .error (.unresolvedTarget id)
    | some index =>
      match tree.entity? index with
      | none => .error (.unresolvedTarget id)
      | some entity => .ok (.entity (targetEntity index entity))

/-! ### What insertion and change do to the view -/

@[simp] theorem size_insert (tree : Tree) (entity : Entity) :
    (tree.insert entity).size = tree.size + 1 := by
  simp [insert, size]

@[simp] theorem entity?_insert_size (tree : Tree) (entity : Entity) :
    (tree.insert entity).entity? tree.size = some entity := by
  simp [insert, entity?, size]

theorem entity?_insert_of_lt (tree : Tree) (entity : Entity) {index : Nat}
    (h : index < tree.size) : (tree.insert entity).entity? index = tree.entity? index := by
  simp [insert, entity?, size] at h ⊢
  rw [List.getElem?_append_left h]

@[simp] theorem size_modify (tree : Tree) (index : Nat) (f : Entity → Entity) :
    (tree.modify index f).size = tree.size := by
  simp [modify, size]

@[simp] theorem entity?_modify_self (tree : Tree) (index : Nat) (f : Entity → Entity) :
    (tree.modify index f).entity? index = (tree.entity? index).map f := by
  simp [modify, entity?]

theorem entity?_modify_of_ne (tree : Tree) (f : Entity → Entity) {index other : Nat}
    (h : index ≠ other) : (tree.modify index f).entity? other = tree.entity? other := by
  simp [modify, entity?, h]

end Tree

end Componentry

import Componentry.Json.Decode
import Componentry.Tree.Basic
/-!
# Snapshots

A `Snapshot` is an entity with everything below it, as a value of its own: data providers, the
actions that its bindings lead to, and child controls.  `Tree.snapshot?` takes one, `toJson` writes
it, leaving out what is absent or empty, and `ofJson?` reads it back.

Bindings and controls lead to entities that were built later, and a provider has none but bindings,
so a snapshot never comes back to where it started.  `Tree.snapshotDepth` bounds how deep it goes.
-/

namespace Componentry

/-- An entity and everything below it. -/
inductive Snapshot where
  | mk (id : String) (role : Role) (typeName : Option String) (className : String)
      (attributes : Attributes) (suppressed : Bool) (state : LifecycleState)
      (target : Option String) (payload : Option Json) (dataProviders : List Snapshot)
      (bindings : List (String × Snapshot)) (controls : List Snapshot)

namespace Snapshot

/-- The id of the entity. -/
def id : Snapshot → String
  | mk id .. => id

/-- A member that is left out where there is nothing to write. -/
def present (key : String) : Option Json → List (String × Json)
  | some v => [(key, v)]
  | none => []

/-- A list that is left out where it is empty. -/
def nonempty (items : List Json) : Option Json :=
  if items.isEmpty then none else some (.array items)

mutual

/-- The JSON form of a snapshot. -/
def toJson : Snapshot → Json
  | mk id role typeName className attributes suppressed state target payload dataProviders
      bindings controls =>
    .object (
      [("id", .string id), ("role", .string role.name)]
      ++ present "type" (typeName.map .string)
      ++ [("class_name", .string className), ("attributes", .object attributes)]
      ++ present "suppressed" (if suppressed then some (.bool true) else none)
      ++ [("state", .string state.name)]
      ++ present "target" (target.map .string)
      ++ present "payload" payload
      ++ present "data_providers" (nonempty (listToJson dataProviders))
      ++ present "bindings" (nonempty (bindingsToJson bindings))
      ++ present "controls" (nonempty (listToJson controls)))

/-- The JSON forms of several snapshots. -/
def listToJson : List Snapshot → List Json
  | [] => []
  | s :: rest => toJson s :: listToJson rest

/-- The JSON forms of bindings. -/
def bindingsToJson : List (String × Snapshot) → List Json
  | [] => []
  | (event, action) :: rest =>
    .object [("event", .string event), ("action", toJson action)] :: bindingsToJson rest

end

/-- The fields of a snapshot in order. -/
def fieldNames : List String :=
  ["id", "role", "type", "class_name", "attributes", "suppressed", "state", "target", "payload",
   "data_providers", "bindings", "controls"]

/-- Reads the JSON form of a snapshot that nests at most `depth` snapshots. -/
def decode : Nat → Decoder Snapshot
  | 0, _ => none
  | depth + 1, v => do
    let binding : Decoder (String × Snapshot) := fun v => do
      let r ← Decoder.fields ["event", "action"] v
      return (← Decoder.required r "event" Decoder.string,
        ← Decoder.required r "action" (decode depth))
    let r ← Decoder.fields fieldNames v
    return mk
      (← Decoder.required r "id" Decoder.string)
      (← Decoder.required r "role" (Decoder.name Role.ofName?))
      (← Decoder.optional r "type" (Decoder.nullable Decoder.string) none)
      (← Decoder.required r "class_name" Decoder.string)
      (← Decoder.optional r "attributes" Decoder.attributes [])
      (← Decoder.optional r "suppressed" Decoder.bool false)
      (← Decoder.optional r "state" (Decoder.name LifecycleState.ofName?) .idle)
      (← Decoder.optional r "target" (Decoder.nullable Decoder.string) none)
      (← Decoder.optional r "payload" (Decoder.nullable Decoder.any) none)
      (← Decoder.optional r "data_providers" (Decoder.list (decode depth)) [])
      (← Decoder.optional r "bindings" (Decoder.list binding) [])
      (← Decoder.optional r "controls" (Decoder.list (decode depth)) [])

end Snapshot

namespace Json

mutual

/-- How deep arrays and objects are nested. -/
def depth : Json → Nat
  | .array items => depthOfItems items + 1
  | .object members => depthOfMembers members + 1
  | _ => 0

/-- The greatest depth of several values. -/
def depthOfItems : List Json → Nat
  | [] => 0
  | v :: rest => max (depth v) (depthOfItems rest)

/-- The greatest depth of several members. -/
def depthOfMembers : List (String × Json) → Nat
  | [] => 0
  | (_, v) :: rest => max (depth v) (depthOfMembers rest)

end

end Json

/-- Reads the JSON form of a snapshot. -/
def Snapshot.ofJson? (v : Json) : Option Snapshot := decode v.depth v

namespace Tree

/-- The snapshot of an entity that goes at most `depth` entities deep. -/
def snapshotWithin (tree : Tree) : Nat → Nat → Option Snapshot
  | 0, _ => none
  | depth + 1, index => do
    let e ← tree.entity? index
    let dataProviders ← e.dataProviders.mapM (tree.snapshotWithin depth)
    let bindings ← e.bindings.mapM fun b => do
      return (b.event.text, ← tree.snapshotWithin depth b.action)
    let controls ← e.controls.mapM (tree.snapshotWithin depth)
    return .mk e.id e.role e.typeName e.className e.attributes e.suppressed e.state e.target
      e.payload dataProviders bindings controls

/-- How deep a snapshot of a tree can go: along the entities, then from a provider once more. -/
def snapshotDepth (tree : Tree) : Nat := 2 * tree.size + 1

/-- The snapshot of the entity at an index. -/
def snapshot? (tree : Tree) (index : Nat) : Option Snapshot :=
  tree.snapshotWithin tree.snapshotDepth index

/-- The snapshot of the root. -/
def rootSnapshot? (tree : Tree) : Option Snapshot :=
  tree.root.bind tree.snapshot?

end Tree

end Componentry

import Componentry.Json.Basic
/-!
# Declarations

A declaration is a value of a document read as what it may declare: an object with child controls,
data providers, actions and event handlers, each of them declarations again.  Nothing is refused at
this stage.  A declaration that is no object, a listing that is no list and handlers that are no
map stay in the declaration as such, for the builder to report.

Reading follows the value: `Declaration.ofJson` looks at every member of an object once, and
`own` keeps all the members, of which the builder reads the scalar ones.
-/

namespace Componentry

mutual

/-- What a value of a document declares. -/
inductive Declaration where
  /-- The value is no object. -/
  | other
  /-- An object with its members and the declarations among them. -/
  | object (own : Attributes) (dataProviders actions controls : Listing) (handlers : Handlers)

/-- The declarations under a key that should hold a list. -/
inductive Listing where
  | absent
  /-- The value is no list. -/
  | malformed
  | items (declarations : List Declaration)

/-- What a declaration does on events. -/
inductive Handlers where
  | absent
  /-- The events that trigger the declaration itself, as a comma-separated text. -/
  | trigger (names : String)
  /-- The value is neither a map nor a text. -/
  | malformed
  /-- What is bound to each event. -/
  | entries (bound : List (String × Bound))

/-- What is bound to one event. -/
inductive Bound where
  /-- The value is neither an action nor a list. -/
  | malformed
  | actions (declarations : List Declaration)

end

/-- The declarations among the members of an object, as far as they have been found. -/
structure Found where
  dataProviders : Listing := .absent
  actions : Listing := .absent
  controls : Listing := .absent
  handlers : Handlers := .absent

namespace Declaration

mutual

/-- Reads a value as a declaration. -/
def ofJson : Json → Declaration
  | .object members =>
    let found := ofMembers members
    .object members found.dataProviders found.actions found.controls found.handlers
  | .null | .bool _ | .number _ | .string _ | .array _ => .other

/-- Reads several values as declarations. -/
def ofItems : List Json → List Declaration
  | [] => []
  | v :: rest => ofJson v :: ofItems rest

/-- Finds the declarations among the members of an object; of several members with one key the
first counts. -/
def ofMembers : List (String × Json) → Found
  | [] => {}
  | (key, v) :: rest =>
    let found := ofMembers rest
    if key = "dataProviders" then { found with dataProviders := listing v }
    else if key = "actions" then { found with actions := listing v }
    else if key = "controls" then { found with controls := listing v }
    else if key = "on" then { found with handlers := handlers v }
    else found

/-- Reads a value as a list of declarations. -/
def listing : Json → Listing
  | .array items => .items (ofItems items)
  | .null | .bool _ | .number _ | .string _ | .object _ => .malformed

/-- Reads a value as event handlers. -/
def handlers : Json → Handlers
  | .object members => .entries (boundMembers members)
  | .string names => .trigger names
  | .null | .bool _ | .number _ | .array _ => .malformed

/-- Reads the members of a handler map. -/
def boundMembers : List (String × Json) → List (String × Bound)
  | [] => []
  | (event, v) :: rest => (event, bound v) :: boundMembers rest

/-- Reads what is bound to one event: a list of actions, or a single one. -/
def bound : Json → Bound
  | .array items => .actions (ofItems items)
  | .object members =>
    let found := ofMembers members
    .actions [.object members found.dataProviders found.actions found.controls found.handlers]
  | .null | .bool _ | .number _ | .string _ => .malformed

end

theorem ofItems_eq_map (items : List Json) : ofItems items = items.map ofJson := by
  induction items with
  | nil => rfl
  | cons v rest ih => simp [ofItems, ih]

end Declaration

end Componentry

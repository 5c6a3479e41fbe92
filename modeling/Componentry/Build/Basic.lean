import Componentry.Build.Attributes
import Componentry.Catalog
import Componentry.Condition.Gate
import Componentry.Config
import Componentry.Document.Basic
import Componentry.Document.Declaration
/-!
# Building the tree

A declaration becomes an entity in two steps: `Build.claim` gives it an id, and `Builder.describe`
makes the entity from its type, its attributes and its gates, or reports why there is none.  An
entity that is made goes into the tree before anything below it; an entity that is not made takes
everything below it along, and its siblings are built as if it had not been there.

The walk through the declarations follows their structure: below a control come its data providers,
its bindings and its child controls, below a provider or an action only its bindings.  Among the
bindings the handlers come before the listed actions.
-/

namespace Componentry

/-- What is the same for all declarations of a document. -/
structure Builder where
  catalog : Catalog
  evaluator : Evaluator
  styles : Keyed String Attributes
  /-- The delay of actions that declare none, in microseconds. -/
  defaultDelay : Nat

/-- What has been built and reported so far. -/
structure Build where
  tree : Tree
  problems : List BuildProblem := []
  /-- The ordinal of the id that was generated last, for each role. -/
  ordinals : Keyed Role Nat := []

namespace Build

/-- Reports faults of the declaration at a path. -/
def report (build : Build) (path : String) (faults : List BuildFault) : Build :=
  { build with problems := build.problems ++ faults.map (BuildProblem.mk path) }

/-- Reports a malformed declaration. -/
def malformed (build : Build) (path reason : String) : Build :=
  build.report path [.malformed reason]

/-! ### Ids -/

/-- The generated id with an ordinal. -/
def generatedId (role : Role) (ordinal : Nat) : String :=
  role.idPrefix ++ "-" ++ toString ordinal

/-- The first ordinal from the given one whose id is free; at most `taken` ids are passed over. -/
def freeOrdinal (tree : Tree) (role : Role) : Nat → Nat → Nat
  | 0, ordinal => ordinal
  | taken + 1, ordinal =>
    if tree.isTaken (generatedId role ordinal) then freeOrdinal tree role taken (ordinal + 1)
    else ordinal

/-- Generates an id that no entity is addressed by. -/
def generate (build : Build) (role : Role) : Build × String :=
  let last := (build.ordinals.lookup role).getD 0
  let ordinal := freeOrdinal build.tree role build.tree.ids.length (last + 1)
  ({ build with ordinals := build.ordinals.insert role ordinal }, generatedId role ordinal)

/-- The id of a declaration: the declared one, even if it is taken, or else a generated one. -/
def claim (build : Build) (role : Role) (path : String) (own : Attributes) : Build × String :=
  match own.lookup "id" with
  | none => build.generate role
  | some (.string text) =>
    let id := Text.trim text
    if id = "" then build.generate role
    else if build.tree.isTaken id then (build.report path [.duplicateId id], id)
    else (build, id)
  | some _ => (build.malformed path "'id' must be a string").generate role

/-! ### Links -/

/-- Appends an entity to the tree and hands out its index. -/
def insert (build : Build) (entity : Entity) : Build × Nat :=
  ({ build with tree := build.tree.insert entity }, build.tree.size)

/-- Lists a control below its owner. -/
def linkControl (build : Build) (owner child : Nat) : Build :=
  { build with tree := build.tree.modify owner fun e => { e with controls := e.controls ++ [child] } }

/-- Lists a data provider below its owner. -/
def linkProvider (build : Build) (owner provider : Nat) : Build :=
  { build with
    tree := build.tree.modify owner fun e =>
      { e with dataProviders := e.dataProviders ++ [provider] } }

/-- Binds events to an action. -/
def bind (build : Build) (owner action : Nat) (events : List EventName) : Build :=
  { build with tree := events.foldl (fun tree event => tree.bind owner ⟨event, action⟩) build.tree }

end Build

namespace Builder

/-! ### Making one entity -/

/-- The type of a declaration: none if it is absent or blank, an error if it is no text. -/
def declaredType (own : Attributes) : Except BuildFault (Option String) :=
  match own.lookup "type" with
  | none | some .null => .ok none
  | some (.string text) =>
    let name := Text.trim text
    .ok (if name = "" then none else some name)
  | some _ => .error (.malformed "'type' must be a string")

/-- Runs the factory of a type. -/
def made {α : Type} (found : Except RegistryError (Maker α)) (blueprint : Blueprint) :
    Except BuildFault α :=
  match found with
  | .error e => .error (.ofRegistry e)
  | .ok make =>
    match make blueprint with
    | .ok component => .ok component
    | .error message => .error (.refused blueprint.typeName message)

/-- The behaviour of a type, and the attributes it starts with. -/
def behaviour (builder : Builder) (role : Role) (b : Blueprint) :
    Except BuildFault (Behaviour × Attributes) :=
  match role with
  | .control => do
    let control ← made (builder.catalog.resolveControl b.typeName) b
    return (.control control, control.configure b.attributes)
  | .dataProvider => do
    return (.dataProvider (← made (builder.catalog.resolveDataProvider b.typeName) b), b.attributes)
  | .action => do
    return (.action (← made (builder.catalog.resolveAction b.typeName) b), b.attributes)

/-- The class name of a type. -/
def className (builder : Builder) (role : Role) (typeName : String) : String :=
  match builder.catalog.className role.category typeName with
  | .ok name => name
  | .error _ => dummyClassName

/-- The keys that a role may use in place of entries of `attributes`. -/
def extraKeys : Role → List String
  | .dataProvider => Declared.providerKeys
  | .control | .action => []

/-- An entity of a declared type before its gates and links are known. -/
def typed (builder : Builder) (role : Role) (id : String) (own : Attributes) :
    List BuildFault × Option Entity :=
  match declaredType own with
  | .error fault => ([fault], none)
  | .ok typeName =>
    let faults := Declared.faults builder.styles own
    let attributes := Declared.collected builder.styles (extraKeys role) own
    match typeName with
    | none => (faults, some { id, role, attributes })
    | some typeName =>
      match builder.behaviour role { id, typeName, attributes } with
      | .error fault => (faults ++ [fault], none)
      | .ok (behaviour, attributes) =>
        (faults, some
          { id, role, attributes, behaviour
            typeName := some typeName
            className := builder.className role typeName })

/-- Whether the `if` gate of a declaration is open in the tree built so far; one that cannot be
evaluated is closed. -/
def visible (builder : Builder) (tree : Tree) (condition : Option Json) :
    List BuildFault × Bool :=
  match Gate.isOpen builder.evaluator { tree } condition with
  | .ok visible => ([], visible)
  | .error e => ([.gate ((condition.map Gate.text).getD "") e], false)

/-- Whether the owner is suppressed; the root has no owner. -/
def ownerSuppressed (tree : Tree) (owner : Option Nat) : Bool :=
  match owner.bind tree.entity? with
  | some e => e.suppressed
  | none => false

/-- The target of an action. -/
def declaredTarget (own : Attributes) : List BuildFault × Option String :=
  match own.lookup "target" with
  | none => ([], none)
  | some (.string target) => ([], some (Text.trim target))
  | some _ => ([.malformed "'target' must be a string"], none)

/-- Adds to an entity what its role takes from the declaration. -/
def completed (builder : Builder) (tree : Tree) (owner : Option Nat) (own : Attributes)
    (entity : Entity) : List BuildFault × Entity :=
  let condition := own.lookup "if"
  let entity := { entity with parent := owner, condition }
  match entity.role with
  | .control =>
    let (faults, isVisible) := builder.visible tree condition
    (faults, { entity with
      enabled := own.lookup "enabled"
      suppressed := !isVisible || ownerSuppressed tree owner })
  | .dataProvider =>
    let (faults, isVisible) := builder.visible tree condition
    (faults, { entity with suppressed := !isVisible || ownerSuppressed tree owner })
  | .action =>
    let (targetFaults, target) := declaredTarget own
    let (delayFaults, delay) := Declared.durationAt own "delay"
    let (repeatFaults, repeatDelay) := Declared.durationAt own "repeatDelay"
    let standard := if builder.defaultDelay = 0 then none else some builder.defaultDelay
    (targetFaults ++ delayFaults ++ repeatFaults, { entity with
      target
      enabled := own.lookup "enabled"
      delay := delay <|> standard
      repeatDelay })

/-- The entity of a declaration, and the faults of the declaration. -/
def describe (builder : Builder) (tree : Tree) (role : Role) (owner : Option Nat) (id : String)
    (own : Attributes) : List BuildFault × Option Entity :=
  match builder.typed role id own with
  | (faults, none) => (faults, none)
  | (faults, some entity) =>
    let (more, entity) := builder.completed tree owner own entity
    (faults ++ more, some entity)

/-- Makes the entity of a declaration and puts it into the tree. -/
def enter (builder : Builder) (role : Role) (owner : Option Nat) (path : String)
    (own : Attributes) (build : Build) : Build × Option Nat :=
  let (build, id) := build.claim role path own
  match builder.describe build.tree role owner id own with
  | (faults, none) => (build.report path faults, none)
  | (faults, some entity) =>
    let (build, index) := (build.report path faults).insert entity
    (build, some index)

/-- The provider that a declaration refers to instead of declaring one: its id addresses a
provider. -/
def referred? (tree : Tree) (own : Attributes) : Option Nat :=
  match own.lookup "id" with
  | some (.string id) =>
    match tree.find? (Text.trim id) with
    | some index =>
      match tree.entity? index with
      | some e => if e.role = .dataProvider then some index else none
      | none => none
    | none => none
  | _ => none

/-- What is wrong with a reference: it carries more than the id. -/
def referenceFaults (own : Attributes) : List BuildFault :=
  let extra := own.keys.filter (· ≠ "id")
  let id := Text.trim (((own.lookup "id").bind Json.string?).getD "")
  if extra = [] then []
  else [.malformed ("data provider '" ++ id
    ++ "' is already declared; a reference may only carry 'id' (found "
    ++ ", ".intercalate extra ++ ")")]

/-- The events that a listed action is triggered by, and the names among them that are none. -/
def triggers : Declaration → List BuildFault × List EventName
  | .object _ _ _ _ (.trigger names) =>
    let names := Text.commaList names
    ((names.filter fun name => (EventName.ofText? name).isNone).map fun name =>
        .malformed ("'" ++ name ++ "' is not a valid event name"),
      names.filterMap EventName.ofText?)
  | _ => ([], [])

/-! ### Paths -/

/-- The path of an item of a listing. -/
def itemPath (listing : String) (position : Nat) : String :=
  listing ++ "[" ++ toString position ++ "]"

/-! ### Walking through the declarations -/

mutual

/-- Builds a control and everything below it. -/
def control (builder : Builder) (owner : Option Nat) (path : String) :
    Declaration → Build → Build × Option Nat
  | .other, build => (build.malformed path "control declarations must be objects", none)
  | .object own providers actions controls handlers, build =>
    match builder.enter .control owner path own build with
    | (build, none) => (build, none)
    | (build, some index) =>
      let build := builder.providerListing index path providers build
      let build := builder.handlerMap index path handlers build
      let build := builder.actionListing index path actions build
      (builder.controlListing index path controls build, some index)

/-- Builds the child controls of a control. -/
def controlListing (builder : Builder) (owner : Nat) (path : String) : Listing → Build → Build
  | .absent, build => build
  | .malformed, build => build.malformed path "'controls' must be a list"
  | .items declarations, build => builder.controls owner (path ++ "/controls") 0 declarations build

/-- Builds listed controls one after the other. -/
def controls (builder : Builder) (owner : Nat) (path : String) (position : Nat) :
    List Declaration → Build → Build
  | [], build => build
  | declaration :: rest, build =>
    let build := match builder.control (some owner) (itemPath path position) declaration build with
      | (build, some child) => build.linkControl owner child
      | (build, none) => build
    builder.controls owner path (position + 1) rest build

/-- Builds the data providers of a control. -/
def providerListing (builder : Builder) (owner : Nat) (path : String) : Listing → Build → Build
  | .absent, build => build
  | .malformed, build => build.malformed path "'dataProviders' must be a list"
  | .items declarations, build =>
    builder.providers owner (path ++ "/dataProviders") 0 declarations build

/-- Builds listed providers one after the other. -/
def providers (builder : Builder) (owner : Nat) (path : String) (position : Nat) :
    List Declaration → Build → Build
  | [], build => build
  | declaration :: rest, build =>
    let build := match builder.provider owner (itemPath path position) declaration build with
      | (build, some provider) => build.linkProvider owner provider
      | (build, none) => build
    builder.providers owner path (position + 1) rest build

/-- Builds a data provider, or finds the one that is referred to. -/
def provider (builder : Builder) (owner : Nat) (path : String) :
    Declaration → Build → Build × Option Nat
  | .other, build => (build.malformed path "data provider declarations must be objects", none)
  | .object own _ actions _ handlers, build =>
    match referred? build.tree own with
    | some existing => (build.report path (referenceFaults own), some existing)
    | none =>
      match builder.enter .dataProvider (some owner) path own build with
      | (build, none) => (build, none)
      | (build, some index) =>
        let build := builder.handlerMap index path handlers build
        (builder.actionListing index path actions build, some index)

/-- Builds an action and the actions bound to it. -/
def action (builder : Builder) (owner : Nat) (path : String) :
    Declaration → Build → Build × Option Nat
  | .other, build => (build.malformed path "action declarations must be objects", none)
  | .object own _ actions _ handlers, build =>
    match builder.enter .action (some owner) path own build with
    | (build, none) => (build, none)
    | (build, some index) =>
      let build := builder.handlerMap index path handlers build
      (builder.actionListing index path actions build, some index)

/-- Builds what a declaration does on events. -/
def handlerMap (builder : Builder) (owner : Nat) (path : String) : Handlers → Build → Build
  | .absent, build => build
  | .trigger _, build => build
  | .malformed, build => build.malformed path "'on' must be an event map or a trigger list"
  | .entries bound, build => builder.handlers owner (path ++ "/on.") bound build

/-- Builds the actions of each event in turn. -/
def handlers (builder : Builder) (owner : Nat) (path : String) :
    List (String × Bound) → Build → Build
  | [], build => build
  | (event, bound) :: rest, build =>
    let build := match EventName.ofText? event with
      | none => build.malformed (path ++ event) ("'" ++ event ++ "' is not a valid event name")
      | some name => builder.handler owner (path ++ event) name bound build
    builder.handlers owner path rest build

/-- Builds the actions of one event. -/
def handler (builder : Builder) (owner : Nat) (path : String) (event : EventName) :
    Bound → Build → Build
  | .malformed, build => build.malformed path "bindings must be an action or a list of actions"
  | .actions declarations, build => builder.handlerActions owner path event 0 declarations build

/-- Builds and binds the actions of one event one after the other. -/
def handlerActions (builder : Builder) (owner : Nat) (path : String) (event : EventName)
    (position : Nat) : List Declaration → Build → Build
  | [], build => build
  | declaration :: rest, build =>
    let build := match builder.action owner (itemPath path position) declaration build with
      | (build, some action) => build.bind owner action [event]
      | (build, none) => build
    builder.handlerActions owner path event (position + 1) rest build

/-- Builds the listed actions of a declaration. -/
def actionListing (builder : Builder) (owner : Nat) (path : String) : Listing → Build → Build
  | .absent, build => build
  | .malformed, build => build.malformed path "'actions' must be a list"
  | .items declarations, build => builder.actions owner (path ++ "/actions") 0 declarations build

/-- Builds listed actions one after the other and binds each to the events that trigger it. -/
def actions (builder : Builder) (owner : Nat) (path : String) (position : Nat) :
    List Declaration → Build → Build
  | [], build => build
  | declaration :: rest, build =>
    let here := itemPath path position
    let (faults, events) := triggers declaration
    let build := build.report here faults
    let build :=
      if events = [] then
        build.malformed here "actions in an 'actions' list need an 'on' trigger"
      else
        match builder.action owner here declaration build with
        | (build, some action) => build.bind owner action events
        | (build, none) => build
    builder.actions owner path (position + 1) rest build

end

/-- Builds a document: its root node, and everything below it. -/
def build (builder : Builder) (document : Document) : Build :=
  let start : Build := { tree := { app := document.app, session := document.session } }
  match builder.control none "view" (Declaration.ofJson (.object document.rootNode)) start with
  | (build, some root) => { build with tree := { build.tree with root := some root } }
  | (build, none) => build

end Builder

/-- Builds a document under a configuration. -/
def Document.build (document : Document) (catalog : Catalog) (evaluator : Evaluator)
    (dispatch : DispatchConfig) : Build :=
  { catalog, evaluator, styles := document.styles,
    defaultDelay := 1000 * dispatch.defaultDelay : Builder }.build document

end Componentry

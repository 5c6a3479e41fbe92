import Componentry.Component.Control
import Componentry.Event
import Componentry.Request
import Componentry.Vocabulary
/-!
# Actions

An `Action` decides what happens when a bound event fires.  It does not change anything itself: it
is shown an `Invocation`, which says what the target is, and answers with an `Effect` or refuses
with an `ActionError`.  Carrying the effect out is the business of the session, in one place for
all actions.

Since an answer is either an effect or an error, an action that fails has no effect at all.
-/

namespace Componentry

/-- Where an entity was declared. -/
inductive Role where
  | control
  | dataProvider
  | action
  deriving DecidableEq, Repr

/-- A place that holds attributes: one of the two stores, or an entity. -/
inductive Place where
  | app
  | session
  | entity (index : Nat)
  deriving DecidableEq, Repr

/-- An entity as an action sees it. -/
structure TargetEntity where
  index : Nat
  id : String
  role : Role
  /-- The functions that may be called, if the entity has a control. -/
  functions : Option (List String)
  /-- Whether the entity has a data provider. -/
  loads : Bool
  deriving DecidableEq, Repr

/-- What the target of an action turned out to be. -/
inductive Target where
  | app
  | session
  | entity (entity : TargetEntity)
  deriving DecidableEq, Repr

/-- Why an action fails. -/
inductive ActionError where
  | missingTarget
  | unresolvedTarget (target : String)
  | wrongTarget (target expected : String)
  | unsupportedFunction (target functionName : String)
  | missingAttribute (name : String)
  /-- A collaborator, or the action itself, gives this reason. -/
  | refused (reason : String)
  deriving DecidableEq, Repr

/-- The wording of a failure. -/
def ActionError.message : ActionError → String
  | .missingTarget => "action has no target"
  | .unresolvedTarget target => "target '" ++ target ++ "' does not resolve to an entity"
  | .wrongTarget target expected => "target '" ++ target ++ "' is not a " ++ expected
  | .unsupportedFunction target functionName =>
    "control '" ++ target ++ "' does not support function '" ++ functionName ++ "'"
  | .missingAttribute name => "missing required attribute '" ++ name ++ "'"
  | .refused reason => reason

/-- What an action asks for. -/
inductive Effect where
  | none
  /-- Shows an alert. -/
  | alert (alert : Alert)
  /-- Merges changes into the attributes of a place. -/
  | merge (place : Place) (changes : Attributes) (animated : Bool)
  /-- Redraws the node with this id. -/
  | redraw (id : String)
  /-- Calls a function of a control. -/
  | call (call : FunctionCall)
  /-- Starts a load of the entity with this index. -/
  | load (provider : Nat)
  deriving DecidableEq, Repr

/-- What an action is shown. -/
structure Invocation where
  actionId : String
  /-- The target as it was declared. -/
  declaredTarget : Option String
  /-- What that target is, or why it is nothing. -/
  target : Except ActionError Target
  /-- The attributes of the action with all shortcodes expanded. -/
  attributes : Attributes
  event : Event

namespace Invocation

/-- The text of an attribute. -/
def text? (invocation : Invocation) (name : String) : Option String :=
  (invocation.attributes.lookup name).bind Json.text?

/-- The failure of a target of the wrong kind. -/
def wrongTarget (invocation : Invocation) (expected : String) : ActionError :=
  .wrongTarget (invocation.declaredTarget.getD "") expected

end Invocation

/-- How an action ends: what it reports to the host, and the effect it asks for or its failure. -/
structure Verdict where
  reports : List Json := []
  result : Except ActionError Effect

/-- The behaviour of an action. -/
abbrev Action : Type := Invocation → Verdict

namespace Action

/-- An action that reports nothing. -/
def quiet (decide : Invocation → Except ActionError Effect) : Action :=
  fun invocation => { result := decide invocation }

/-- The place that a target is. -/
def place : Target → Place
  | .app => .app
  | .session => .session
  | .entity e => .entity e.index

/-- Shows an alert made of `title`, `sub_title`, `ok` and `cancel`. -/
def alert : Action := quiet fun invocation =>
  .ok (.alert {
    source := invocation.actionId
    title := invocation.text? "title"
    subTitle := invocation.text? "sub_title"
    ok := invocation.text? "ok"
    cancel := invocation.text? "cancel" })

/-- Whether a value asks for animation: true, or a text that spells it. -/
def isAnimated : Option Json → Bool
  | some (.bool b) => b
  | some (.string s) => Vocabulary.boolLiteral? s = some true
  | _ => false

/-- Merges the attributes into the target; `animated` only says how to show the change. -/
def modify : Action := quiet fun invocation =>
  match invocation.target with
  | .error e => .error e
  | .ok target =>
    .ok (.merge (place target) (invocation.attributes.erase "animated")
      (isAnimated (invocation.attributes.lookup "animated")))

/-- Stores `value`: under `key` in a store, under `value` in an entity. -/
def set : Action := quiet fun invocation =>
  match invocation.target, invocation.attributes.lookup "value" with
  | .error e, _ => .error e
  | .ok _, none => .error (.missingAttribute "value")
  | .ok (.entity e), some value => .ok (.merge (.entity e.index) [("value", value)] false)
  | .ok store, some value =>
    match invocation.text? "key" with
    | none => .error (.missingAttribute "key")
    | some key => .ok (.merge (place store) [(key, value)] false)

/-- Loads a provider again, or redraws a control. -/
def refresh : Action := quiet fun invocation =>
  match invocation.target with
  | .error e => .error e
  | .ok (.entity e) =>
    match e.role with
    | .dataProvider => .ok (.load e.index)
    | .control => .ok (.redraw e.id)
    | .action => .error (invocation.wrongTarget "control or data provider")
  | .ok _ => .error (invocation.wrongTarget "control or data provider")

/-- Loads a provider. -/
def load : Action := quiet fun invocation =>
  match invocation.target with
  | .error e => .error e
  | .ok (.entity e) =>
    if e.loads then .ok (.load e.index) else .error (invocation.wrongTarget "data provider")
  | .ok _ => .error (invocation.wrongTarget "data provider")

/-- Calls the function `function_name` of a control; the other attributes are its parameters. -/
def function : Action := quiet fun invocation =>
  match invocation.target with
  | .error e => .error e
  | .ok (.entity e) =>
    match invocation.text? "function_name", e.functions with
    | none, _ => .error (.missingAttribute "function_name")
    | some _, none => .error (invocation.wrongTarget "control")
    | some name, some functions =>
      if name ∈ functions then
        .ok (.call ⟨e.id, name, invocation.attributes.erase "function_name"⟩)
      else .error (.unsupportedFunction e.id name)
  | .ok _ => .error (invocation.wrongTarget "control")

/-- The built-in actions with their type names. -/
def builtins : List (String × Action) :=
  [("alert", alert), ("modify", modify), ("refresh", refresh), ("load", load), ("set", set),
   ("function", function)]

end Action

end Componentry

import Componentry.Request
import Componentry.Text.Cut
/-!
# Data providers

A `DataProvider` loads data: `request` turns its attributes into a `DataRequest`, `plan` says
whether the request goes to the transport or is answered at once, and `transform` shapes a
successful answer into the payload that is kept.

`DataRequest.ofAttributes` is the usual request: four keys are taken out of the attributes, the
rest travels along.
-/

namespace Componentry

/-- What a component is made from. -/
structure Blueprint where
  id : String
  typeName : String
  attributes : Attributes
  deriving DecidableEq, Repr

/-- Why a load yields no data: the request was rejected, or it could not be carried out. -/
inductive LoadFailure where
  | failed (message : String) (payload : Option Json)
  | error (message : String)
  deriving DecidableEq, Repr

/-- How a load ends. -/
abbrev LoadResult : Type := Except LoadFailure Json

/-- Where the result of a load comes from. -/
inductive LoadPlan where
  /-- The transport answers the request. -/
  | ask (request : DataRequest)
  /-- The provider answers by itself. -/
  | answer (result : LoadResult)

/-- Takes the object under a key out of attributes; anything else there is dropped. -/
def Attributes.takeObject (attributes : Attributes) (key : String) : Attributes × Attributes :=
  (((attributes.lookup key).bind Json.object?).getD [], attributes.erase key)

/-- The request made of the attributes of a provider: parameters, attachments, headers that have a
text, and the entity are taken out. -/
def DataRequest.ofAttributes (b : Blueprint) : DataRequest :=
  let (parameters, rest) := b.attributes.takeObject "parameters"
  let (attachments, rest) := rest.takeObject "attachments"
  let (headers, rest) := rest.takeObject "headers"
  { providerId := b.id
    providerType := b.typeName
    entity := (rest.lookup "entity").bind Json.text?
    parameters
    headers := headers.filterMap fun header => header.2.text?.map fun text => (header.1, text)
    attachments
    attributes := rest.erase "entity" }

/-- The behaviour of a source of data. -/
structure DataProvider where
  /-- Whether actions bound to the provider may repeat. -/
  supportsRepetition : Bool := true
  /-- The request made of an id, a type and attributes. -/
  request : Blueprint → DataRequest := DataRequest.ofAttributes
  /-- Who answers a request. -/
  plan : DataRequest → LoadPlan := .ask
  /-- The payload made of an answer, given the attributes. -/
  transform : Json → Attributes → Json := fun answer _ => answer

namespace DataProvider

/-- Asks the transport and keeps the part of the answer below `data_path`, or null where there is
none. -/
def json : DataProvider where
  transform answer attributes :=
    match (attributes.lookup "data_path").bind Json.string? with
    | none => answer
    | some path => (answer.atPath? (Text.dottedPath path)).getD .null

/-- Serves its own `value`. -/
def static : DataProvider where
  supportsRepetition := false
  plan request := .answer <|
    match request.attributes.lookup "value" with
    | some value => .ok value
    | none => .error (.failed ("static provider '" ++ request.providerId ++ "' has no value") none)

/-- The built-in providers with their type names. -/
def builtins : List (String × DataProvider) :=
  [("json", json), ("static", static)]

end DataProvider

end Componentry

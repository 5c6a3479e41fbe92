import Componentry.Json.Decode
import Componentry.Json.Printer
/-!
# Requests to the host

Three things leave the engine: a `DataRequest` goes to the transport when a data provider loads, an
`Alert` to the presenter, and a `FunctionCall` to the renderer.  Each is a record with a JSON form:
`toJson` writes it and `ofJson?` reads it back.
-/

namespace Componentry

/-- The text of a value inside of other text: null has none, a string is itself, everything else is
written compactly. -/
def Json.text? : Json → Option String
  | .null => none
  | .string s => some s
  | v => some v.compact

/-- The JSON form of a text that may be missing. -/
def Json.ofText : Option String → Json
  | none => .null
  | some s => .string s

/-- What a transport needs to answer the load of a data provider. -/
structure DataRequest where
  providerId : String
  providerType : String
  /-- The name of what the provider reads or writes. -/
  entity : Option String := none
  parameters : Attributes := []
  headers : Keyed String String := []
  attachments : Attributes := []
  /-- The attributes that are none of the above. -/
  attributes : Attributes := []
  deriving DecidableEq, Repr

namespace DataRequest

/-- The JSON form of a request. -/
def toJson (r : DataRequest) : Json :=
  .object [
    ("provider_id", .string r.providerId),
    ("provider_type", .string r.providerType),
    ("entity", .ofText r.entity),
    ("parameters", .object r.parameters),
    ("headers", .object (Keyed.mapValues .string r.headers)),
    ("attachments", .object r.attachments),
    ("attributes", .object r.attributes)]

/-- Reads the JSON form of a request. -/
def ofJson? (v : Json) : Option DataRequest := do
  let r ← Decoder.fields ["provider_id", "provider_type", "entity", "parameters", "headers",
    "attachments", "attributes"] v
  return {
    providerId := ← Decoder.required r "provider_id" Decoder.string
    providerType := ← Decoder.required r "provider_type" Decoder.string
    entity := ← Decoder.optional r "entity" (Decoder.nullable Decoder.string) none
    parameters := ← Decoder.optional r "parameters" Decoder.attributes []
    headers := ← Decoder.optional r "headers" (Decoder.keyed some Decoder.string) []
    attachments := ← Decoder.optional r "attachments" Decoder.attributes []
    attributes := ← Decoder.optional r "attributes" Decoder.attributes [] }

end DataRequest

/-- An alert to be shown. -/
structure Alert where
  /-- The action that asks for the alert. -/
  source : String
  title : Option String := none
  subTitle : Option String := none
  /-- The label of the confirming button. -/
  ok : Option String := none
  /-- The label of the dismissing button; without it there is none. -/
  cancel : Option String := none
  deriving DecidableEq, Repr

namespace Alert

/-- The JSON form of an alert. -/
def toJson (a : Alert) : Json :=
  .object [
    ("source", .string a.source),
    ("title", .ofText a.title),
    ("sub_title", .ofText a.subTitle),
    ("ok", .ofText a.ok),
    ("cancel", .ofText a.cancel)]

/-- Reads the JSON form of an alert. -/
def ofJson? (v : Json) : Option Alert := do
  let r ← Decoder.fields ["source", "title", "sub_title", "ok", "cancel"] v
  let text (name : String) := Decoder.optional r name (Decoder.nullable Decoder.string) none
  return {
    source := ← Decoder.required r "source" Decoder.string
    title := ← text "title"
    subTitle := ← text "sub_title"
    ok := ← text "ok"
    cancel := ← text "cancel" }

end Alert

/-- A function of a control to be called. -/
structure FunctionCall where
  target : String
  functionName : String
  parameters : Attributes := []
  deriving DecidableEq, Repr

namespace FunctionCall

/-- The JSON form of a call. -/
def toJson (c : FunctionCall) : Json :=
  .object [
    ("target", .string c.target),
    ("function_name", .string c.functionName),
    ("parameters", .object c.parameters)]

/-- Reads the JSON form of a call. -/
def ofJson? (v : Json) : Option FunctionCall := do
  let r ← Decoder.fields ["target", "function_name", "parameters"] v
  return {
    target := ← Decoder.required r "target" Decoder.string
    functionName := ← Decoder.required r "function_name" Decoder.string
    parameters := ← Decoder.optional r "parameters" Decoder.attributes [] }

end FunctionCall

end Componentry

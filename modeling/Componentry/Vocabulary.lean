import Componentry.Text.Case
import Componentry.Text.Cut
/-!
# The reserved vocabulary

Every word that the document format gives a meaning belongs to one `Vocabulary.Kind`: the keys that
structure a declaration, the keys of data providers, the lifecycle events, the built-in actions,
the literal tokens of attribute values, and the attributes that the built-in components know.
`Vocabulary.kind?` classifies a word.

The small grammars of attribute values live here too: boolean literals and the brackets around an
embedded expression.
-/

namespace Componentry.Vocabulary

/-- What a reserved word is used for. -/
inductive Kind where
  | structuralKey
  | dataProviderKey
  | eventName
  | actionType
  | literal
  | attribute
  deriving DecidableEq, Repr

/-- The keys that structure a document, a node or an action. -/
def structuralKeys : List String :=
  ["id", "app", "style", "target", "type", "session", "view", "controls", "actions", "attributes",
   "dataProviders", "value", "orientation", "if", "enabled", "on", "delay", "repeatDelay"]

/-- The keys that only a data provider declaration gives a meaning. -/
def dataProviderKeys : List String := ["parameters", "headers", "attachments", "entity"]

/-- The lifecycle events. -/
def eventNames : List String := ["error", "failed", "finished", "success"]

/-- The built-in action types. -/
def actionTypes : List String := ["alert", "modify", "refresh", "load", "set", "function"]

/-- The tokens of attribute values. -/
def literals : List String := ["true", "false", "", ",", ".", ":"]

/-- The attributes and attribute values that built-in components know. -/
def attributes : List String :=
  ["animated", "title", "sub_title", "ok", "cancel", "touch", ".gif", "default"]

/-- All reserved words with their kind. -/
def words : List (String × Kind) :=
  structuralKeys.map (·, .structuralKey) ++ dataProviderKeys.map (·, .dataProviderKey)
    ++ eventNames.map (·, .eventName) ++ actionTypes.map (·, .actionType)
    ++ literals.map (·, .literal) ++ attributes.map (·, .attribute)

/-- The kind of a reserved word. -/
def kind? (word : String) : Option Kind :=
  words.lookup word

/-- Whether a key structures a declaration and is therefore no free attribute. -/
def isReservedKey (word : String) : Bool :=
  kind? word = some .structuralKey || kind? word = some .dataProviderKey

/-- Whether a word names a lifecycle event. -/
def isLifecycleEvent (word : String) : Bool :=
  kind? word = some .eventName

/-- Whether a word names a built-in action type. -/
def isBuiltinAction (word : String) : Bool :=
  kind? word = some .actionType

/-- The boolean that a literal stands for, without regard to blanks around it or to case. -/
def boolLiteral? (token : String) : Option Bool :=
  let trimmed := Text.trim token
  if Text.equalIgnoringCase trimmed "true" then some true
  else if Text.equalIgnoringCase trimmed "false" then some false
  else none

/-- The trimmed inside of a text that is wrapped in double braces. -/
def embeddedExpression? (raw : String) : Option String := do
  let opened ← Text.stripPrefix ['{', '{'] (Text.trimChars raw.toList)
  let inner ← Text.stripSuffix ['}', '}'] opened
  return String.ofList (Text.trimChars inner)

end Componentry.Vocabulary

import Componentry.Category
import Componentry.Keyed
import Componentry.Registry.ClassName
/-!
# The type registry

A `Registry α` stores one `α` per category and class name.  Type names are only ever used through
the class name format of their category, so spellings with the same class name share an entry.
A second registration of an entry replaces the first, in its place, or is refused, as the policy
says; `unregister` removes an entry and closes the gap.

`RegistryConfig` is the configurable part: the policy and the formats that differ from the default.
-/

namespace Componentry

/-- What happens when an occupied entry is registered again. -/
inductive RegistrationPolicy where
  /-- The later registration replaces the earlier one. -/
  | overwrite
  /-- The later registration is refused. -/
  | strict
  deriving DecidableEq, Repr

/-- The configurable part of a registry. -/
structure RegistryConfig where
  policy : RegistrationPolicy := .overwrite
  classNameFormats : Keyed Category String := []
  deriving DecidableEq, Repr

/-- Why a registry refuses a request. -/
inductive RegistryError where
  | unknownType (category : Category) (typeName className : String)
  | duplicateRegistration (category : Category) (className : String)
  | invalidTypeName (category : Category) (typeName : String)
  | invalidFormat (category : Category) (format : String)
  deriving DecidableEq, Repr

/-- The wording of a registry error. -/
def RegistryError.message : RegistryError → String
  | .unknownType category typeName className =>
    "unknown " ++ category.name ++ " type '" ++ typeName ++ "' (class " ++ className
      ++ " is not registered)"
  | .duplicateRegistration category className =>
    category.name ++ " class " ++ className ++ " is already registered"
  | .invalidTypeName category typeName =>
    "'" ++ typeName ++ "' is not a valid " ++ category.name ++ " type name"
  | .invalidFormat category format =>
    "class name format '" ++ format ++ "' for " ++ category.name
      ++ " must contain exactly one '\x7b\x7d' placeholder"

/-- A stored entry: the type name as it was last registered, and what is stored. -/
structure Registration (α : Type) where
  typeName : String
  stored : α
  deriving DecidableEq, Repr

/-- The result of a registration that was not refused. -/
inductive RegistrationOutcome where
  | inserted
  | replaced
  deriving DecidableEq, Repr

/-- An entry as it is listed. -/
structure RegisteredType where
  category : Category
  typeName : String
  className : String
  deriving DecidableEq, Repr

/-- One stored value per category and class name. -/
structure Registry (α : Type) where
  policy : RegistrationPolicy
  formats : Keyed Category ClassNameFormat
  entries : Keyed (Category × String) (Registration α)

namespace Registry

variable {α : Type}

/-- The formats of all categories by default. -/
def defaultFormats : Keyed Category ClassNameFormat :=
  Category.all.filterMap fun category =>
    (ClassNameFormat.ofText? category.defaultFormat).map fun format => (category, format)

/-- An empty registry with the default formats. -/
def empty (policy : RegistrationPolicy) : Registry α :=
  ⟨policy, defaultFormats, []⟩

/-- Replaces the formats of the given categories. -/
def withFormats (registry : Registry α) :
    Keyed Category String → Except RegistryError (Registry α)
  | [] => .ok registry
  | (category, raw) :: rest =>
    match ClassNameFormat.ofText? raw with
    | none => .error (.invalidFormat category raw)
    | some format =>
      { registry with formats := registry.formats.insert category format }.withFormats rest

/-- An empty registry with the configured policy and formats. -/
def ofConfig (config : RegistryConfig) : Except RegistryError (Registry α) :=
  (empty config.policy).withFormats config.classNameFormats

/-- The written format of a category. -/
def format? (registry : Registry α) (category : Category) : Option String :=
  (registry.formats.lookup category).map ClassNameFormat.pattern

/-- The class name of a type name in a category. -/
def className (registry : Registry α) (category : Category) (typeName : String) :
    Except RegistryError String :=
  match (registry.formats.lookup category).bind fun format => format.className? typeName with
  | some name => .ok name
  | none => .error (.invalidTypeName category typeName)

/-- Stores a value under a type name. -/
def register (registry : Registry α) (category : Category) (typeName : String) (value : α) :
    Except RegistryError (RegistrationOutcome × Registry α) :=
  match registry.className category typeName with
  | .error e => .error e
  | .ok name =>
    let registration : Registration α := ⟨Text.trim typeName, value⟩
    let stored :=
      { registry with entries := registry.entries.insert (category, name) registration }
    if registry.entries.contains (category, name) then
      match registry.policy with
      | .strict => .error (.duplicateRegistration category name)
      | .overwrite => .ok (.replaced, stored)
    else .ok (.inserted, stored)

/-- The value stored under a type name. -/
def resolve (registry : Registry α) (category : Category) (typeName : String) :
    Except RegistryError α :=
  match registry.className category typeName with
  | .error e => .error e
  | .ok name =>
    match registry.entries.lookup (category, name) with
    | some registration => .ok registration.stored
    | none => .error (.unknownType category typeName name)

/-- Whether a type name is registered. -/
def contains (registry : Registry α) (category : Category) (typeName : String) : Bool :=
  match registry.resolve category typeName with
  | .ok _ => true
  | .error _ => false

/-- Removes a type name and hands out what was stored. -/
def unregister (registry : Registry α) (category : Category) (typeName : String) :
    Option α × Registry α :=
  match registry.className category typeName with
  | .error _ => (none, registry)
  | .ok name =>
    ((registry.entries.lookup (category, name)).map Registration.stored,
      { registry with entries := registry.entries.erase (category, name) })

/-- The entries of a category in order. -/
def registeredTypes (registry : Registry α) (category : Category) : List RegisteredType :=
  registry.entries.filterMap fun entry =>
    if entry.1.1 = category then some ⟨category, entry.2.typeName, entry.1.2⟩ else none

/-- How many entries there are. -/
def size (registry : Registry α) : Nat := registry.entries.length

end Registry

end Componentry

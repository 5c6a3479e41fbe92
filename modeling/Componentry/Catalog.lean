import Componentry.Component.Shortcode
import Componentry.Registry.Basic
/-!
# The component catalog

The catalog is the registry of component factories.  A `Factory` makes a component from a
`Blueprint`, or refuses with a message; its constructor says which category it belongs to, and
`Catalog.register` stores it there and nowhere else.  Each category has its own way to resolve a
type, so that what comes out is a factory of the right kind.
-/

namespace Componentry

/-- Makes a component, or refuses with a message. -/
abbrev Maker (α : Type) : Type := Blueprint → Except String α

/-- What the catalog stores. -/
inductive Factory where
  | control (make : Maker Control)
  | dataProvider (make : Maker DataProvider)
  | action (make : Maker Action)
  | shortcode (shortcode : Shortcode)

/-- The category that a factory belongs to. -/
def Factory.category : Factory → Category
  | .control _ => .control
  | .dataProvider _ => .dataProvider
  | .action _ => .action
  | .shortcode _ => .shortcode

/-- The registry of component factories. -/
structure Catalog where
  registry : Registry Factory

namespace Catalog

/-- A catalog without components. -/
def empty (config : RegistryConfig) : Except RegistryError Catalog :=
  (Registry.ofConfig config).map Catalog.mk

/-- Stores a factory under a type name of its category. -/
def register (catalog : Catalog) (typeName : String) (factory : Factory) :
    Except RegistryError Catalog :=
  (catalog.registry.register factory.category typeName factory).map fun stored => ⟨stored.2⟩

/-- Stores several factories in order. -/
def registerAll (catalog : Catalog) : List (String × Factory) → Except RegistryError Catalog
  | [] => .ok catalog
  | (typeName, factory) :: rest =>
    match catalog.register typeName factory with
    | .ok catalog => catalog.registerAll rest
    | .error e => .error e

/-- The built-in components in the order of their registration. -/
def builtins : List (String × Factory) :=
  Control.builtins.map (fun (name, c) => (name, .control fun _ => .ok c))
    ++ DataProvider.builtins.map (fun (name, p) => (name, .dataProvider fun _ => .ok p))
    ++ Action.builtins.map (fun (name, a) => (name, .action fun _ => .ok a))
    ++ Shortcode.builtins.map (fun (name, s) => (name, .shortcode s))

/-- The catalog of the built-in components. -/
def withBuiltins (config : RegistryConfig) : Except RegistryError Catalog :=
  match empty config with
  | .ok catalog => catalog.registerAll builtins
  | .error e => .error e

/-- The class name of a type. -/
def className (catalog : Catalog) (category : Category) (typeName : String) :
    Except RegistryError String :=
  catalog.registry.className category typeName

/-- Resolves a type of a category to what `pick` takes out of the factory stored there; a factory of
another kind counts as unknown. -/
def resolveAs {α : Type} (catalog : Catalog) (category : Category) (pick : Factory → Option α)
    (typeName : String) : Except RegistryError α :=
  match catalog.registry.resolve category typeName with
  | .error e => .error e
  | .ok factory =>
    match pick factory with
    | some found => .ok found
    | none =>
      let name := match catalog.className category typeName with
        | .ok name => name
        | .error _ => ""
      .error (.unknownType category typeName name)

/-- Resolves the type of a control. -/
def resolveControl (catalog : Catalog) : String → Except RegistryError (Maker Control) :=
  catalog.resolveAs .control fun | .control make => some make | _ => none

/-- Resolves the type of a data provider. -/
def resolveDataProvider (catalog : Catalog) : String → Except RegistryError (Maker DataProvider) :=
  catalog.resolveAs .dataProvider fun | .dataProvider make => some make | _ => none

/-- Resolves the type of an action. -/
def resolveAction (catalog : Catalog) : String → Except RegistryError (Maker Action) :=
  catalog.resolveAs .action fun | .action make => some make | _ => none

/-- Resolves the type of a shortcode. -/
def resolveShortcode (catalog : Catalog) : String → Except RegistryError Shortcode :=
  catalog.resolveAs .shortcode fun | .shortcode shortcode => some shortcode | _ => none

end Catalog

end Componentry

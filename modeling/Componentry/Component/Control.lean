import Componentry.Json.Basic
import Componentry.Text.Case
import Componentry.Text.Cut
/-!
# Controls

A `Control` is what the type of a renderable node stands for.  `configure` brings the attributes
of the node into normal form; it runs once when the node is built and again after every change, so
that a node is always shown in normal form.  `functions` are the names that may be called on the
node, and only a control with `supportsRepetition` lets the actions bound to it repeat.
-/

namespace Componentry

/-- The behaviour of a renderable node. -/
structure Control where
  /-- Brings attributes into normal form. -/
  configure : Attributes → Attributes := id
  /-- The functions that may be called. -/
  functions : List String := []
  /-- Whether actions bound to the node may repeat. -/
  supportsRepetition : Bool := false

namespace Control

/-- A container: it lays its children out along `orientation`, which is `vertical` unless it spells
`horizontal`. -/
def view : Control where
  configure attributes :=
    let written := ((attributes.lookup "orientation").bind Json.string?).map Text.lower
    let orientation := if written = some "horizontal" then "horizontal" else "vertical"
    attributes.insert "orientation" (.string orientation)

/-- A label: `text` is empty unless it is given. -/
def text : Control where
  configure attributes := attributes.insertNew "text" (.string "")

/-- A button. -/
def button : Control where
  functions := ["press"]

/-- An image: `animated` says whether `source` names an animation. -/
def image : Control where
  configure attributes :=
    let animated := match (attributes.lookup "source").bind Json.string? with
      | some source => (Text.stripSuffix ".gif".toList (Text.lower source).toList).isSome
      | none => false
    attributes.insert "animated" (.bool animated)
  functions := ["start_animation", "stop_animation"]

/-- A text field: `value` is empty unless it is given. -/
def textInput : Control where
  configure attributes := attributes.insertNew "value" (.string "")
  functions := ["focus", "blur", "clear"]

/-- The built-in controls with their type names. -/
def builtins : List (String × Control) :=
  [("view", view), ("text", text), ("button", button), ("image", image),
   ("text_input", textInput)]

end Control

end Componentry

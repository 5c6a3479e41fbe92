import Componentry.Text.Blank
import Componentry.Text.Case
/-!
# Categories

A declared type belongs to one of four categories, and the same type name may exist once in each.
`Category.defaultFormat` is the class name format of a category: the type name, in upper camel
case, takes the place of the braces.
-/

namespace Componentry

/-- What a declared type is resolved to. -/
inductive Category where
  | control
  | dataProvider
  | action
  | shortcode
  deriving DecidableEq, Repr

namespace Category

/-- The categories in the order of listings. -/
def all : List Category := [.control, .dataProvider, .action, .shortcode]

/-- The name of a category. -/
def name : Category → String
  | .control => "control"
  | .dataProvider => "data_provider"
  | .action => "action"
  | .shortcode => "shortcode"

/-- The class name format that applies where none is configured. -/
def defaultFormat : Category → String
  | .control => "IX\x7b\x7dControl"
  | .dataProvider => "IX\x7b\x7dDataProvider"
  | .action => "IX\x7b\x7dAction"
  | .shortcode => "IX\x7b\x7dShortcode"

/-- The category with exactly this name. -/
def ofName? (name : String) : Option Category :=
  all.find? fun category => category.name = name

end Category

/-- A text that names no category. -/
structure UnknownCategory where
  text : String
  deriving DecidableEq, Repr

/-- The wording of the error. -/
def UnknownCategory.message (e : UnknownCategory) : String :=
  "unknown category '" ++ e.text
    ++ "'; expected one of control, data_provider, action, shortcode"

/-- Reads a category name: blanks around it, case, and the choice between `-` and `_` do not
matter. -/
def Category.ofText (raw : String) : Except UnknownCategory Category :=
  let normal := (Text.lower (Text.trim raw)).toList.map fun c => if c = '-' then '_' else c
  match Category.ofName? (String.ofList normal) with
  | some category => .ok category
  | none => .error ⟨raw⟩

end Componentry

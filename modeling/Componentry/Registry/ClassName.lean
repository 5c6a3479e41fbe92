import Componentry.Text.Blank
import Componentry.Text.Cut
import Componentry.Text.Words
/-!
# Class names

The types of a category are stored under class names.  A `ClassNameFormat` is what stands before
and after the type name, written with a pair of braces in its place; the type name itself is put
into upper camel case, so that `text_input`, `text-input` and `TextInput` share a class name.
-/

namespace Componentry

/-- What surrounds the type name in a class name. -/
structure ClassNameFormat where
  before : String
  after : String
  deriving DecidableEq, Repr

namespace ClassNameFormat

/-- The braces that stand for the type name. -/
def placeholder : List Char := ['{', '}']

/-- Reads a format; it holds exactly one placeholder. -/
def ofText? (raw : String) : Option ClassNameFormat :=
  match Text.cut placeholder raw.toList with
  | none => none
  | some (before, after) =>
    if Text.contains placeholder after then none
    else some ⟨String.ofList before, String.ofList after⟩

/-- The written form of a format. -/
def pattern (format : ClassNameFormat) : String :=
  format.before ++ String.ofList placeholder ++ format.after

/-- The class name of a type name; a type name is made of identifier characters. -/
def className? (format : ClassNameFormat) (typeName : String) : Option String :=
  let trimmed := Text.trim typeName
  if trimmed.toList ≠ [] ∧ trimmed.toList.all Text.isNameChar then
    some (format.before ++ Text.upperCamelCase trimmed ++ format.after)
  else none

end ClassNameFormat

end Componentry

/-!
# ASCII case

Reserved words are compared without regard to the case of the letters `A` to `Z`; every other
character stands for itself.
-/

namespace Componentry.Text

/-- Lower-cases the letters `A` to `Z`. -/
def lower (s : String) : String :=
  String.ofList (s.toList.map Char.toLower)

/-- Upper-cases the letters `a` to `z`. -/
def upper (s : String) : String :=
  String.ofList (s.toList.map Char.toUpper)

/-- Equality up to the case of ASCII letters. -/
def equalIgnoringCase (s t : String) : Bool :=
  s.toList.map Char.toLower = t.toList.map Char.toLower

/-- A letter or digit of ASCII. -/
def isAsciiAlphanumeric (c : Char) : Bool :=
  c.isAlphanum

/-- The characters of identifiers: ASCII letters, digits, `_` and `-`. -/
def isNameChar (c : Char) : Bool :=
  c.isAlphanum || c == '_' || c == '-'

end Componentry.Text

import Componentry.Catalog
/-!
# Templates

A text may hold shortcodes, `[[type]]` or `[[type:argument]]`.  A text that is nothing but one
shortcode stands for the value of that shortcode, whatever its kind; in any other text shortcodes
are replaced by the text of their values.  What a shortcode yields is never searched for shortcodes
again.  `Template.expand` does this to every text inside a value.
-/

namespace Componentry.Template

/-- What a text is made of. -/
inductive Piece where
  /-- Text that stands for itself. -/
  | verbatim (text : List Char)
  /-- What is between the brackets of a shortcode. -/
  | shortcode (inner : List Char)
  deriving DecidableEq, Repr

/-- The state of a scan: outside of a shortcode, or inside of one, with the characters since its
brackets in reverse. -/
inductive Scan where
  | outside
  | inside (read : List Char)

/-- Splits a text into pieces. Brackets that are never closed stand for themselves, with all that
follows. -/
def pieces : Scan → List Char → List Piece
  | .outside, '[' :: '[' :: rest => pieces (.inside []) rest
  | .outside, c :: rest => .verbatim [c] :: pieces .outside rest
  | .outside, [] => []
  | .inside read, ']' :: ']' :: rest => .shortcode read.reverse :: pieces .outside rest
  | .inside read, c :: rest => pieces (.inside (c :: read)) rest
  | .inside read, [] => [.verbatim ('[' :: '[' :: read.reverse)]

/-- The value of a shortcode; there is none if its type is unknown or its argument leads nowhere. -/
def evaluate? (catalog : Catalog) (scope : Scope) (inner : List Char) : Option Json :=
  let (typeName, argument) := Text.headAndTail (String.ofList inner)
  match catalog.resolveShortcode typeName with
  | .ok shortcode => shortcode argument scope
  | .error _ => none

/-- The text that a piece is replaced by. -/
def Piece.render (catalog : Catalog) (scope : Scope) : Piece → List Char
  | .verbatim text => text
  | .shortcode inner => (((evaluate? catalog scope inner).bind Json.text?).getD "").toList

/-- The inside of a text that, blanks around it aside, is one shortcode and nothing else. -/
def whole? (text : List Char) : Option (List Char) := do
  let opened ← Text.stripPrefix ['[', '['] (Text.trimChars text)
  let inner ← Text.stripSuffix [']', ']'] opened
  if Text.contains ['[', '['] inner || Text.contains [']', ']'] inner then none else some inner

/-- The text with all its shortcodes replaced. -/
def render (catalog : Catalog) (scope : Scope) (text : List Char) : String :=
  String.ofList ((pieces .outside text).flatMap (Piece.render catalog scope))

/-- The value that a text stands for. -/
def expandText (catalog : Catalog) (scope : Scope) (text : String) : Json :=
  match whole? text.toList with
  | some inner => (evaluate? catalog scope inner).getD (.string "")
  | none => .string (render catalog scope text.toList)

mutual

/-- Replaces every text inside a value by what it stands for; keys stay as they are. -/
def expand (catalog : Catalog) (scope : Scope) : Json → Json
  | .string text => expandText catalog scope text
  | .array items => .array (expandItems catalog scope items)
  | .object members => .object (expandMembers catalog scope members)
  | v => v

/-- Replaces the texts inside of several values. -/
def expandItems (catalog : Catalog) (scope : Scope) : List Json → List Json
  | [] => []
  | v :: rest => expand catalog scope v :: expandItems catalog scope rest

/-- Replaces the texts inside of several members. -/
def expandMembers (catalog : Catalog) (scope : Scope) :
    List (String × Json) → List (String × Json)
  | [] => []
  | (key, v) :: rest => (key, expand catalog scope v) :: expandMembers catalog scope rest

end

/-- Replaces the texts inside of attributes. -/
def expandAttributes (catalog : Catalog) (scope : Scope) (attributes : Attributes) : Attributes :=
  expandMembers catalog scope attributes

end Componentry.Template

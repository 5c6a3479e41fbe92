import Componentry.Yaml.Token
/-!
# Directives

A directive stands on a line of its own in front of a document: it names the version of YAML or
lets a handle stand for a prefix of tags.
-/

namespace Componentry.Yaml.Directive

/-- Reads a number of at most nine digits. -/
def number? (text : List Placed) : Option (Nat × List Placed) := do
  let digits := charsWhile Char.isDigit text
  guard (digits ≠ [] ∧ digits.length ≤ 9)
  return (digits.foldl (fun n c => 10 * n + (c.toNat - '0'.toNat)) 0,
    afterWhile Char.isDigit text)

/-- Reads a version behind its name. -/
def version? (text : List Placed) : Option (Token × List Placed) := do
  let (major, text) ← number? (dropBlanks text)
  guard (startsWith '.' text)
  let (minor, text) ← number? (text.drop 1)
  return (.version major minor, text)

/-- Reads a handle and its prefix. -/
def handle? (text : List Placed) : Option (Token × List Placed) := do
  let text := dropBlanks text
  guard (startsWith '!' text)
  let name := charsWhile isNameChar (text.drop 1)
  let text := afterWhile isNameChar (text.drop 1)
  let closed := startsWith '!' text
  guard (closed ∨ name = [])
  let text := if closed then text.drop 1 else text
  guard ((next? text).any isBlank)
  let (stands, text) ← WrittenTag.someSuffix? true (dropBlanks text)
  guard (endsWord text)
  return (.handle (String.ofList ('!' :: name ++ if closed then ['!'] else [])) stands, text)

/-- Reads a directive behind its percent sign, with the rest of its line. -/
def read? (text : List Placed) : Option (Token × List Placed) := do
  let name := charsWhile isNameChar text
  let text := afterWhile isNameChar text
  guard (endsWord text)
  let (token, text) ←
    if name = "YAML".toList then version? text
    else if name = "TAG".toList then handle? text
    else none
  let text := dropBlanks text
  let text := if startsWith '#' text then dropLine text else text
  guard (endsLine text)
  return (token, text.drop 1)

end Componentry.Yaml.Directive

import Componentry.Json.Basic
/-!
# Writing JSON

`Json.compact` writes a value without any space, `Json.pretty` with one member or item a line and
two spaces per level.  In a string only the quotation mark, the backslash and the control
characters below U+0020 are escaped.
-/

namespace Componentry.Json

/-- A digit of a hexadecimal number. -/
def hexDigit (n : Nat) : Char :=
  Nat.digitChar n

/-- The written form of one character of a string. -/
def escapeChar (c : Char) : List Char :=
  match c with
  | '"' => ['\\', '"']
  | '\\' => ['\\', '\\']
  | '\n' => ['\\', 'n']
  | '\r' => ['\\', 'r']
  | '\t' => ['\\', 't']
  | '\x08' => ['\\', 'b']
  | '\x0c' => ['\\', 'f']
  | c =>
    if c.toNat < 0x20 then
      ['\\', 'u', '0', '0', hexDigit (c.toNat / 16), hexDigit (c.toNat % 16)]
    else [c]

/-- A string with its quotation marks. -/
def quote (s : String) : List Char :=
  '"' :: s.toList.flatMap escapeChar ++ ['"']

mutual

/-- The text of a value without any space. -/
def compactChars : Json → List Char
  | .null => "null".toList
  | .bool true => "true".toList
  | .bool false => "false".toList
  | .number n => n.render.toList
  | .string s => quote s
  | .array items => '[' :: compactItems items ++ [']']
  | .object members => '{' :: compactMembers members ++ ['}']

/-- Items with commas between them. -/
def compactItems : List Json → List Char
  | [] => []
  | [v] => compactChars v
  | v :: rest => compactChars v ++ ',' :: compactItems rest

/-- Members with commas between them. -/
def compactMembers : List (String × Json) → List Char
  | [] => []
  | [(k, v)] => quote k ++ ':' :: compactChars v
  | (k, v) :: rest => quote k ++ ':' :: compactChars v ++ ',' :: compactMembers rest

end

/-- The text of a value without any space. -/
def compact (v : Json) : String :=
  String.ofList (compactChars v)

/-- A line break and the spaces of a level. -/
def newline (level : Nat) : List Char :=
  '\n' :: List.replicate (2 * level) ' '

mutual

/-- The text of a value with one item or member a line. -/
def prettyChars (level : Nat) : Json → List Char
  | .array [] => "[]".toList
  | .object [] => "{}".toList
  | .array items => '[' :: prettyItems (level + 1) items ++ newline level ++ [']']
  | .object members => '{' :: prettyMembers (level + 1) members ++ newline level ++ ['}']
  | .null => "null".toList
  | .bool true => "true".toList
  | .bool false => "false".toList
  | .number n => n.render.toList
  | .string s => quote s

/-- Items on lines of their own. -/
def prettyItems (level : Nat) : List Json → List Char
  | [] => []
  | [v] => newline level ++ prettyChars level v
  | v :: rest => newline level ++ prettyChars level v ++ ',' :: prettyItems level rest

/-- Members on lines of their own. -/
def prettyMembers (level : Nat) : List (String × Json) → List Char
  | [] => []
  | [(k, v)] => newline level ++ quote k ++ ':' :: ' ' :: prettyChars level v
  | (k, v) :: rest =>
    newline level ++ quote k ++ ':' :: ' ' :: prettyChars level v ++ ',' :: prettyMembers level rest

end

/-- The text of a value with one item or member a line. -/
def pretty (v : Json) : String :=
  String.ofList (prettyChars 0 v)

end Componentry.Json

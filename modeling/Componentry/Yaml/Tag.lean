import Componentry.Json.Reader
import Componentry.Yaml.Character
/-!
# Tags

A tag is written with a handle and a suffix; the directives of a document say which prefix a handle
stands for.  Its text is a list of bytes, since escapes write bytes.  Of all tags only those of the
core types matter, and the local ones, which begin with an exclamation mark: `Tag.ofBytes?` tells
them apart.
-/

namespace Componentry.Yaml

/-- What a tag says about its node. -/
inductive Tag where
  | null
  | bool
  | int
  | float
  /-- Another tag that is no local one. -/
  | other
  /-- A tag of the document's own. -/
  | custom
  /-- A lone exclamation mark. -/
  | nonSpecific
  deriving DecidableEq, Repr

/-- A tag as it is written. -/
structure WrittenTag where
  handle : String
  suffix : List UInt8
  deriving DecidableEq, Repr

/-- The prefixes that handles stand for. -/
abbrev Handles : Type := List (String × List UInt8)

/-- The bytes of a text. -/
def bytesOf (s : String) : List UInt8 := s.toUTF8.toList

/-- The prefix of the core types. -/
def corePrefix : String := "tag:yaml.org,2002:"

/-- The handles that need no directive. -/
def Handles.predefined : Handles := [("!", bytesOf "!"), ("!!", bytesOf corePrefix)]

namespace Tag

/-- What the bytes of a tag say; a local tag that is no text says nothing. -/
def ofBytes? (bytes : List UInt8) : Option Tag :=
  if bytes = bytesOf "!" then some .nonSpecific
  else if bytes.head? = some 0x21 then
    if (String.fromUTF8? ⟨bytes.toArray⟩).isSome then some .custom else none
  else if bytes = bytesOf (corePrefix ++ "null") then some .null
  else if bytes = bytesOf (corePrefix ++ "bool") then some .bool
  else if bytes = bytesOf (corePrefix ++ "int") then some .int
  else if bytes = bytesOf (corePrefix ++ "float") then some .float
  else some .other

end Tag

/-- The bytes of a written tag; the handle has to be known. -/
def WrittenTag.bytes? (handles : Handles) (tag : WrittenTag) : Option (List UInt8) :=
  if tag.handle = "" then some tag.suffix
  else (handles.lookup tag.handle).map (· ++ tag.suffix)

/-! ### Reading tags -/

namespace WrittenTag

/-- The characters of a suffix; brackets and commas only belong to a verbatim one. -/
def isSuffixChar (verbatim : Bool) (c : Char) : Bool :=
  isNameChar c || ";/?:@&=+$.!~*'()".toList.contains c || (verbatim && ",[]".toList.contains c)

/-- How many bytes follow the first byte of a character. -/
def following? (byte : Nat) : Option Nat :=
  if byte < 0x80 then some 0
  else if 0xC0 ≤ byte ∧ byte < 0xE0 then some 1
  else if 0xE0 ≤ byte ∧ byte < 0xF0 then some 2
  else if 0xF0 ≤ byte ∧ byte < 0xF8 then some 3
  else none

/-- The byte that two hexadecimal digits write. -/
def byte? (high low : Char) : Option Nat := do
  return 16 * (← Json.hexValue? high) + (← Json.hexValue? low)

/-- Reads the bytes of a suffix, with `left` bytes of a character still to come. -/
def suffix? (verbatim : Bool) (left : Nat) : List Placed → Option (List UInt8 × List Placed)
  | [] => if left = 0 then some ([], []) else none
  | p :: rest =>
    if p.char = '%' then
      match rest with
      | a :: b :: rest =>
        match byte? a.char b.char with
        | none => none
        | some byte =>
          let left? := if left = 0 then following? byte
            else if 0x80 ≤ byte ∧ byte < 0xC0 then some (left - 1) else none
          match left? with
          | none => none
          | some left =>
            (suffix? verbatim left rest).map fun read => (UInt8.ofNat byte :: read.1, read.2)
      | _ => none
    else if 0 < left then none
    else if isSuffixChar verbatim p.char then
      (suffix? verbatim 0 rest).map fun read => (UInt8.ofNat p.char.toNat :: read.1, read.2)
    else some ([], p :: rest)

/-- Reads a suffix that is not empty; a zero byte ends what it says. -/
def someSuffix? (verbatim : Bool) (text : List Placed) : Option (List UInt8 × List Placed) := do
  let (bytes, rest) ← suffix? verbatim 0 text
  guard !bytes.isEmpty
  return (bytes.takeWhile (· ≠ 0), rest)

/-- Reads a tag behind its exclamation mark: a verbatim one in angle brackets, a handle with a
suffix, or a suffix alone. -/
def parts? (text : List Placed) : Option (WrittenTag × List Placed) := do
  if startsWith '<' text then
    let (suffix, text) ← someSuffix? true (text.drop 1)
    guard (startsWith '>' text)
    return (⟨"", suffix⟩, text.drop 1)
  let name := charsWhile isNameChar text
  let behind := afterWhile isNameChar text
  if startsWith '!' behind then
    let (suffix, text) ← someSuffix? false (behind.drop 1)
    return (⟨String.ofList ('!' :: name ++ ['!']), suffix⟩, text)
  let (suffix, text) ← suffix? false 0 text
  let suffix := suffix.takeWhile (· ≠ 0)
  return (if suffix.isEmpty then ⟨"", bytesOf "!"⟩ else ⟨"!", suffix⟩, text)

/-- Reads a tag behind its exclamation mark, up to white space or a comma between brackets. -/
def read? (inFlow : Bool) (text : List Placed) : Option (WrittenTag × List Placed) := do
  let (tag, text) ← parts? text
  guard (endsWord text || (inFlow && startsWith ',' text))
  return (tag, text)

end WrittenTag

end Componentry.Yaml

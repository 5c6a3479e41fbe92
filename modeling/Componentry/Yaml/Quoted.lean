import Componentry.Json.Reader
import Componentry.Yaml.Folding
/-!
# Quoted scalars

Between single quotes only the quote itself is special: it is written twice.  Between double quotes
a backslash begins an escape: a letter for one character, a hexadecimal number of two, four or
eight digits, or the end of a line, which is then left out.  White space is folded in both.

The reader takes one character at a time; `Pending` says what the characters before it have begun.
-/

namespace Componentry.Yaml.Quoted

/-- What has been begun and needs the next character to be understood. -/
inductive Pending where
  | nothing
  /-- A single quote: the end, or the first of two. -/
  | quote
  /-- A backslash. -/
  | escape
  /-- A character number with some digits still to come. -/
  | digits (left value : Nat)
  deriving DecidableEq, Repr

/-- The character that a letter behind a backslash stands for. -/
def escaped? : Char → Option Char
  | '0' => some '\x00'
  | 'a' => some '\x07'
  | 'b' => some '\x08'
  | 't' => some '\t'
  | '\t' => some '\t'
  | 'n' => some '\n'
  | 'v' => some '\x0b'
  | 'f' => some '\x0c'
  | 'r' => some '\r'
  | 'e' => some '\x1b'
  | ' ' => some ' '
  | '"' => some '"'
  | '/' => some '/'
  | '\\' => some '\\'
  | 'N' => some '\u0085'
  | '_' => some '\u00a0'
  | 'L' => some '\u2028'
  | 'P' => some '\u2029'
  | _ => none

/-- How many digits follow a letter that announces a character number. -/
def digitCount? : Char → Option Nat
  | 'x' => some 2
  | 'u' => some 4
  | 'U' => some 8
  | _ => none

/-- The character with a number; surrogates are none. -/
def character? (number : Nat) : Option Char :=
  if number.isValidChar then some (Char.ofNat number) else none

/-- Reads the rest of a quoted scalar; `content` is what was read so far, most recent character
first. -/
def read? (single : Bool) (content : List Char) (gap : Gap) :
    Pending → List Placed → Option (String × List Placed)
  | .quote, [] => some (String.ofList content.reverse, [])
  | .nothing, [] | .escape, [] | .digits _ _, [] => none
  | .quote, p :: rest =>
    if p.char = '\'' then read? single ('\'' :: content) Gap.empty .nothing rest
    else some (String.ofList content.reverse, p :: rest)
  | .escape, p :: rest =>
    if isBreak p.char then read? single content (.lines none []) .nothing rest
    else match digitCount? p.char, escaped? p.char with
      | some count, _ => read? single content Gap.empty (.digits count 0) rest
      | none, some c => read? single (c :: content) Gap.empty .nothing rest
      | none, none => none
  | .digits left value, p :: rest =>
    match Json.hexValue? p.char with
    | none => none
    | some digit =>
      let value := 16 * value + digit
      if 1 < left then read? single content Gap.empty (.digits (left - 1) value) rest
      else match character? value with
        | some c => read? single (c :: content) Gap.empty .nothing rest
        | none => none
  | .nothing, p :: rest =>
    if isBlank p.char || isBreak p.char then read? single content (gap.push p.char) .nothing rest
    else if (marker? (p :: rest)).isSome then none
    else
      let content := gap.folded ++ content
      if single then
        if p.char = '\'' then read? single content Gap.empty .quote rest
        else read? single (p.char :: content) Gap.empty .nothing rest
      else if p.char = '"' then some (String.ofList content.reverse, rest)
      else if p.char = '\\' then read? single content Gap.empty .escape rest
      else read? single (p.char :: content) Gap.empty .nothing rest

end Componentry.Yaml.Quoted

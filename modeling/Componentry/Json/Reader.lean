import Componentry.Json.Basic
/-!
# Reading JSON

A text is first split into tokens, which are then assembled by a stack of open arrays and objects
into a `Written` value.  That is the text as it was written: repeated keys are all there, numbers
are numerals, and a string whose escapes name half a surrogate pair has no content.  Both steps
recurse on what is left to read and need no other bound.

`Written.toJson?` turns it into a value: a repeated key keeps its first place and its last value,
and values nested deeper than `nestingLimit`, numbers that are too large and strings without
content are refused.
-/

namespace Componentry.Json

/-! ### Tokens -/

/-- What a text is made of. -/
inductive Token where
  | open_ (object : Bool)
  | close (object : Bool)
  | comma
  | colon
  | null
  | bool (value : Bool)
  | number (numeral : Numeral)
  | string (content : Option String)
  deriving Repr, DecidableEq

/-- The value of a hexadecimal digit. -/
def hexValue? (c : Char) : Option Nat :=
  if c.isDigit then some (c.toNat - '0'.toNat)
  else if 'a' ≤ c ∧ c ≤ 'f' then some (c.toNat - 'a'.toNat + 10)
  else if 'A' ≤ c ∧ c ≤ 'F' then some (c.toNat - 'A'.toNat + 10)
  else none

/-- The number written with four hexadecimal digits. -/
def hexUnit? (a b c d : Char) : Option Nat := do
  return 4096 * (← hexValue? a) + 256 * (← hexValue? b) + 16 * (← hexValue? c) + (← hexValue? d)

/-- The character of a one-letter escape. -/
def escaped? : Char → Option Char
  | '"' => some '"'
  | '\\' => some '\\'
  | '/' => some '/'
  | 'b' => some '\x08'
  | 'f' => some '\x0c'
  | 'n' => some '\n'
  | 'r' => some '\r'
  | 't' => some '\t'
  | _ => none

/-- The four characters between tokens that mean nothing. -/
def isSpace (c : Char) : Bool :=
  c == ' ' || c == '\t' || c == '\n' || c == '\r'

/-- The characters of numerals. -/
def isNumeralChar (c : Char) : Bool :=
  c.isDigit || c == '-' || c == '+' || c == '.' || c == 'e' || c == 'E'

/-- The part of a token read so far, most recent character first.  `high` is the first half of a
surrogate pair that still waits for its second half; `content` is lost once a half stands alone. -/
inductive Lexeme where
  | between
  | word (letters : List Char)
  | numeral (chars : List Char)
  | string (high : Option Nat) (content : Option (List Char))

namespace Lexeme

/-- The token of a finished word. -/
def wordToken? (letters : List Char) : Option Token :=
  match String.ofList letters.reverse with
  | "null" => some .null
  | "true" => some (.bool true)
  | "false" => some (.bool false)
  | _ => none

/-- Ends a word or a numeral; an open string has no token. -/
def finish? : Lexeme → Option (List Token)
  | .between => some []
  | .word letters => (wordToken? letters).map fun t => [t]
  | .numeral chars => (Numeral.ofChars? chars.reverse).map fun n => [.number n]
  | .string _ _ => none

/-- Begins with a character that is not part of a token under way. -/
def start? (c : Char) : Option (List Token × Lexeme) :=
  if isSpace c then some ([], .between)
  else if c.isAlpha then some ([], .word [c])
  else if isNumeralChar c then some ([], .numeral [c])
  else match c with
    | '{' => some ([.open_ true], .between)
    | '}' => some ([.close true], .between)
    | '[' => some ([.open_ false], .between)
    | ']' => some ([.close false], .between)
    | ',' => some ([.comma], .between)
    | ':' => some ([.colon], .between)
    | '"' => some ([], .string none (some []))
    | _ => none

/-- Adds one character that was not written as a surrogate; a waiting first half is then alone. -/
def push (high : Option Nat) (content : Option (List Char)) (c : Char) : Lexeme :=
  match high with
  | none => .string none (content.map (c :: ·))
  | some _ => .string none none

/-- Adds a code unit written with `\u`. -/
def pushUnit (high : Option Nat) (content : Option (List Char)) (unit : Nat) : Lexeme :=
  if 0xD800 ≤ unit ∧ unit < 0xDC00 then
    match high with
    | none => .string (some unit) content
    | some _ => .string none none
  else if 0xDC00 ≤ unit ∧ unit < 0xE000 then
    match high with
    | some first =>
      let code := 0x10000 + (first - 0xD800) * 0x400 + (unit - 0xDC00)
      .string none (content.map (Char.ofNat code :: ·))
    | none => .string none none
  else push high content (Char.ofNat unit)

/-- The token of a string that ends here. -/
def closeString (high : Option Nat) (content : Option (List Char)) : Token :=
  .string (match high with
    | none => content.map fun cs => String.ofList cs.reverse
    | some _ => none)

/-- Splits a text into tokens. -/
def tokens? : Lexeme → List Char → Option (List Token)
  | lexeme, [] => lexeme.finish?
  | .string high content, '"' :: rest =>
    (tokens? .between rest).map (closeString high content :: ·)
  | .string high content, '\\' :: 'u' :: a :: b :: c :: d :: rest =>
    match hexUnit? a b c d with
    | some unit => tokens? (pushUnit high content unit) rest
    | none => none
  | .string high content, '\\' :: c :: rest =>
    match escaped? c with
    | some c => tokens? (push high content c) rest
    | none => none
  | .string high content, c :: rest =>
    if c = '\\' ∨ c.toNat < 0x20 then none else tokens? (push high content c) rest
  | .word letters, c :: rest =>
    if c.isAlpha then tokens? (.word (c :: letters)) rest
    else do
      let ended ← (Lexeme.word letters).finish?
      let (begun, lexeme) ← start? c
      return ended ++ begun ++ (← tokens? lexeme rest)
  | .numeral chars, c :: rest =>
    if isNumeralChar c then tokens? (.numeral (c :: chars)) rest
    else do
      let ended ← (Lexeme.numeral chars).finish?
      let (begun, lexeme) ← start? c
      return ended ++ begun ++ (← tokens? lexeme rest)
  | .between, c :: rest => do
    let (begun, lexeme) ← start? c
    return begun ++ (← tokens? lexeme rest)

end Lexeme

/-! ### Written values -/

/-- A value as it is written: numerals instead of numbers, repeated keys, and strings that may
have no content. -/
inductive Written where
  | null
  | bool (value : Bool)
  | number (numeral : Numeral)
  | string (content : Option String)
  | array (items : List Written)
  | object (members : List (Option String × Written))
  deriving Repr

/-- An array or object that is still open, with what it holds so far in reverse, and the key under
which the next value of an object goes. -/
inductive Frame where
  | array (items : List Written)
  | object (members : List (Option String × Written)) (key : Option String)

mutual

/-- Reads a value inside the given open frames. -/
def value? (frames : List Frame) : List Token → Option Written
  | .null :: rest => next? .null frames rest
  | .bool b :: rest => next? (.bool b) frames rest
  | .number n :: rest => next? (.number n) frames rest
  | .string s :: rest => next? (.string s) frames rest
  | .open_ false :: .close false :: rest => next? (.array []) frames rest
  | .open_ false :: rest => value? (.array [] :: frames) rest
  | .open_ true :: .close true :: rest => next? (.object []) frames rest
  | .open_ true :: .string key :: .colon :: rest => value? (.object [] key :: frames) rest
  | _ => none

/-- Goes on behind a value: with the next one of the innermost frame, or by closing it. -/
def next? (v : Written) (frames : List Frame) : List Token → Option Written
  | [] => if frames.isEmpty then some v else none
  | token :: rest =>
    match frames, token with
    | .array items :: frames, .comma => value? (.array (v :: items) :: frames) rest
    | .array items :: frames, .close false => next? (.array (v :: items).reverse) frames rest
    | .object members key :: frames, .close true =>
      next? (.object ((key, v) :: members).reverse) frames rest
    | .object members key :: frames, .comma =>
      match rest with
      | .string following :: .colon :: rest =>
        value? (.object ((key, v) :: members) following :: frames) rest
      | _ => none
    | _, _ => none

end

/-- Reads a whole text. -/
def Written.ofText? (text : String) : Option Written := do
  value? [] (← Lexeme.tokens? .between text.toList)

/-- How deep arrays and objects may be nested. -/
def nestingLimit : Nat := 127

namespace Written

mutual

/-- The value of a written text, if it nests at most `depth` arrays and objects. -/
def toJson? (depth : Nat) : Written → Option Json
  | .null => some .null
  | .bool b => some (.bool b)
  | .number n => n.toNumber?.map .number
  | .string s => s.map .string
  | .array items =>
    match depth with
    | 0 => none
    | depth + 1 => (items? depth items).map .array
  | .object members =>
    match depth with
    | 0 => none
    | depth + 1 => (members? depth members).map fun members => .object (Keyed.ofList members)

/-- The values of written items. -/
def items? (depth : Nat) : List Written → Option (List Json)
  | [] => some []
  | v :: rest =>
    match toJson? depth v, items? depth rest with
    | some v, some rest => some (v :: rest)
    | _, _ => none

/-- The values of written members, repeated keys included. -/
def members? (depth : Nat) : List (Option String × Written) → Option (List (String × Json))
  | [] => some []
  | (key, v) :: rest =>
    match key, toJson? depth v, members? depth rest with
    | some key, some v, some rest => some ((key, v) :: rest)
    | _, _, _ => none

end

end Written

/-- The value of a JSON text. -/
def ofText? (text : String) : Option Json := do
  (← Written.ofText? text).toJson? nestingLimit

end Componentry.Json

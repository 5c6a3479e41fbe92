import Componentry.Keyed
import Componentry.Text.Blank
import Componentry.Text.Case
import Componentry.Text.Cut
import Componentry.Text.WordChar
/-!
# Redacting secrets

Before a text is logged, what looks like a secret is replaced by `[REDACTED]`.  Four recognisers
run over the text one after the other, each from left to right and each going on behind its last
match: the rest of an authorization header, the token behind `Bearer`, the one behind `Basic`, and
the value behind an assignment to a name that ends in `KEY`, `TOKEN`, `SECRET` or `PASSWORD`.

A recogniser is a function from the character before a position and the text behind it to a
`Finding`: how many characters of the match stay and how many go.  Letters are compared without
regard to case, where the long s and the Kelvin sign count as `s` and `k`.
-/

namespace Componentry.Redaction

/-- What takes the place of a secret. -/
def mark : List Char := "[REDACTED]".toList

/-- A match: the characters that stay, and the secret ones behind them. -/
structure Finding where
  kept : Nat
  secret : Nat
  deriving DecidableEq, Repr

/-- Looks at a position: the character before it, if any, and the text from there on. -/
abbrev Recogniser : Type := Option Char → List Char → Option Finding

/-- The lower case letter that a character counts as. -/
def foldCase (c : Char) : Char :=
  if c = '\u212A' then 'k' else if c = '\u017F' then 's' else c.toLower

/-- The text behind a word, without regard to case. -/
def behindWord : List Char → List Char → Option (List Char)
  | [], text => some text
  | _ :: _, [] => none
  | w :: word, c :: text => if foldCase c = w then behindWord word text else none

/-- How many characters at the front are in a class. -/
def countWhile (p : Char → Bool) (text : List Char) : Nat :=
  (text.takeWhile p).length

/-- A header `authorization:` and blanks; all of the text behind it, trailing blanks apart, is
secret. -/
def authorization : Recogniser := fun _ text => do
  let word := "authorization:".toList
  let rest ← behindWord word text
  let blanks := countWhile Text.isBlank rest
  let secret := (Text.trimEnd (rest.drop blanks)).length
  if blanks = 0 ∨ secret = 0 then none else some ⟨word.length + blanks, secret⟩

/-- Whether a word may begin here. -/
def atBoundary (before : Option Char) : Bool :=
  match before with
  | none => true
  | some c => !Text.isWordChar c

/-- A scheme word at a word boundary, blanks, and a token with its padding of equals signs. -/
def credentials (word : List Char) (isTokenChar : Char → Bool) : Recogniser := fun before text => do
  let rest ← behindWord word text
  let blanks := countWhile Text.isBlank rest
  let body := rest.drop blanks
  let token := countWhile isTokenChar body
  let padding := countWhile (· == '=') (body.drop token)
  if atBoundary before ∧ blanks ≠ 0 ∧ token ≠ 0 then
    some ⟨word.length + blanks, token + padding⟩
  else none

/-- Letters and digits, case folded, and the given other characters. -/
def isTokenChar (others : List Char) (c : Char) : Bool :=
  (foldCase c).isAlphanum || others.contains c

/-- The token behind `Bearer`. -/
def bearer : Recogniser :=
  credentials "bearer".toList (isTokenChar ['-', '.', '_', '~', '+', '/'])

/-- The token behind `Basic`. -/
def basic : Recogniser :=
  credentials "basic".toList (isTokenChar ['+', '/'])

/-- The name endings whose values are secret. -/
def secretNames : List (List Char) :=
  ["key".toList, "token".toList, "secret".toList, "password".toList]

/-- An assignment to one of the secret names; everything up to the next blank is secret. -/
def assignment : Recogniser := fun _ text =>
  secretNames.findSome? fun name => do
    let rest ← behindWord (name ++ ['=']) text
    let secret := countWhile (fun c => !Text.isBlank c) rest
    if secret = 0 then none else some ⟨name.length + 1, secret⟩

/-- The text with every match of a recogniser redacted.  `before` is the character in front, and
`skip` counts the characters that belong to the last match. -/
def replaceFrom (find : Recogniser) (before : Option Char) (skip : Nat) : List Char → List Char
  | [] => []
  | c :: rest =>
    match skip with
    | skip + 1 => replaceFrom find (some c) skip rest
    | 0 =>
      match find before (c :: rest) with
      | some finding =>
        (c :: rest).take finding.kept ++ mark
          ++ replaceFrom find (some c) (finding.kept + finding.secret - 1) rest
      | none => c :: replaceFrom find (some c) 0 rest

/-- The text with every match of a recogniser redacted. -/
def replaceAll (find : Recogniser) (text : List Char) : List Char :=
  replaceFrom find none 0 text

/-- The recognisers in the order in which they run. -/
def recognisers : List Recogniser := [authorization, bearer, basic, assignment]

/-- The text without its secrets. -/
def redactChars (text : List Char) : List Char :=
  recognisers.foldl (fun text find => replaceAll find text) text

/-- The text without its secrets. -/
def redact (text : String) : String :=
  String.ofList (redactChars text.toList)

/-- What the name of a header contains if its value is always secret. -/
def sensitiveNames : List String :=
  ["authorization", "cookie", "token", "secret", "api-key", "apikey", "password"]

/-- Whether the value of a header is secret whatever it looks like. -/
def isSensitive (name : String) : Bool :=
  sensitiveNames.any fun part => Text.hasSubtext (Text.lower name) part

/-- Headers without their secrets. -/
def redactHeaders (headers : Keyed String String) : Keyed String String :=
  headers.map fun header =>
    (header.1, if isSensitive header.1 then String.ofList mark else redact header.2)

end Componentry.Redaction

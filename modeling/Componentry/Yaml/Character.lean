/-!
# The characters of a YAML text

A text is read as a list of placed characters: each knows its line and its column, so whatever is
left to read also says where it stands.  Before that a byte order mark at the front is dropped,
every way to end a line becomes a line feed, and a text with a character that YAML does not allow
is refused.

* `Placed.ofText?` places the characters of a text;
* `endsWord` holds where a word cannot go on: before a blank, a line break and the end;
* `marker?` recognises the markers `---` and `...` that begin and end a document.
-/

namespace Componentry.Yaml

/-- A character with its line and its column, both counted from zero. -/
structure Placed where
  char : Char
  line : Nat
  column : Nat
  deriving DecidableEq, Repr

/-- The byte order mark. -/
def byteOrderMark : Char := '\uFEFF'

/-- The code points that a text may contain, as closed ranges in ascending order. -/
def allowedRanges : List (Nat × Nat) :=
  [(0x9, 0xA), (0xD, 0xD), (0x20, 0x7E), (0x85, 0x85), (0xA0, 0xD7FF), (0xE000, 0xFFFD),
   (0x10000, 0x10FFFF)]

/-- Whether a text may contain a character. -/
def isAllowed (c : Char) : Bool :=
  allowedRanges.any fun range => range.1 ≤ c.toNat && c.toNat ≤ range.2

/-- Spaces and tabs. -/
def isBlank (c : Char) : Bool := c == ' ' || c == '\t'

/-- The characters that end a line once `unified` has been applied. -/
def isBreak (c : Char) : Bool := c == '\n' || c == '\u2028' || c == '\u2029'

/-- The characters of anchors and tag handles. -/
def isNameChar (c : Char) : Bool := c.isAlphanum || c == '_' || c == '-'

/-- Writes every carriage return, with or without a line feed, and every next-line character as a
line feed. -/
def unified : List Char → List Char
  | [] => []
  | '\r' :: '\n' :: rest => '\n' :: unified rest
  | c :: rest => (if c = '\r' ∨ c = '\u0085' then '\n' else c) :: unified rest

/-- Places characters from a line and a column on. -/
def place (line column : Nat) : List Char → List Placed
  | [] => []
  | c :: rest =>
    ⟨c, line, column⟩ :: if isBreak c then place (line + 1) 0 rest else place line (column + 1) rest

/-- The placed characters of a text. -/
def Placed.ofText? (text : String) : Option (List Placed) :=
  let chars := match text.toList with
    | c :: rest => if c = byteOrderMark then rest else c :: rest
    | [] => []
  if chars.all isAllowed then some (place 0 0 (unified chars)) else none

/-! ### Looking ahead -/

/-- The next character. -/
def next? (text : List Placed) : Option Char := text.head?.map Placed.char

/-- Whether a line ends here. -/
def endsLine (text : List Placed) : Bool := (next? text).all isBreak

/-- Whether a word ends here. -/
def endsWord (text : List Placed) : Bool := (next? text).all fun c => isBlank c || isBreak c

/-- Whether the next character is a given one. -/
def startsWith (c : Char) (text : List Placed) : Bool := next? text == some c

/-- Leaves out blanks. -/
def dropBlanks (text : List Placed) : List Placed := text.dropWhile fun p => isBlank p.char

/-- Leaves out the rest of a line up to its end. -/
def dropLine (text : List Placed) : List Placed := text.dropWhile fun p => !isBreak p.char

/-- The characters in front for which a condition holds. -/
def charsWhile (p : Char → Bool) (text : List Placed) : List Char :=
  (text.takeWhile fun q => p q.char).map Placed.char

/-- What follows the characters in front for which a condition holds. -/
def afterWhile (p : Char → Bool) (text : List Placed) : List Placed :=
  text.dropWhile fun q => p q.char

/-- The character of which a document marker here is made: a hyphen for the marker that begins a
document, a period for the one that ends it.  A marker is three of them at the start of a line
that end a word. -/
def marker? : List Placed → Option Char
  | a :: b :: c :: rest =>
    if a.column = 0 ∧ (a.char = '-' ∨ a.char = '.') ∧ b.char = a.char ∧ c.char = a.char ∧ endsWord rest
    then some a.char else none
  | _ => none

end Componentry.Yaml

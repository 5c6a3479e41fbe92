import Componentry.Yaml.Block
import Componentry.Yaml.Directive
import Componentry.Yaml.Plain
import Componentry.Yaml.Quoted
/-!
# Layout

Splitting a text into tokens means understanding its indentation.  `Layout` is the state of that:
what is left to read, the tokens found so far, the columns of the open block collections, and the
keys that may be under way.

Outside of brackets a collection opens where its first item or key is indented further than the
collections around it, and closes where a line is indented less (`closeBlocks`).  A mapping is only
known as such at the colon behind its first key: whatever could be a key is remembered as a
`Candidate` with its place among the tokens, and the colon inserts the announcement there
(`announceKey`).  A candidate has to stay on one line and within `keyLimit` characters.
-/

namespace Componentry.Yaml

/-- How many characters a key may have that is not announced. -/
def keyLimit : Nat := 1024

/-- Something that is a key if a colon follows. -/
structure Candidate where
  /-- How many tokens come before it. -/
  place : Nat
  line : Nat
  column : Nat
  /-- Whether nothing but a key can stand there. -/
  required : Bool
  deriving DecidableEq, Repr

/-- The state of reading a text. -/
structure Layout where
  text : List Placed
  /-- The tokens found, most recent first. -/
  tokens : List Token := []
  /-- The columns of the open block collections, innermost first. -/
  columns : List Nat := []
  /-- The candidate in the innermost collection in brackets, or outside of all brackets. -/
  candidate : Option Candidate := none
  /-- The candidates around it, one for each open bracket. -/
  outer : List (Option Candidate) := []
  /-- Whether a key may begin here. -/
  keyAllowed : Bool := true
  /-- The numbers of the anchors. -/
  anchors : Keyed String Nat := []

namespace Layout

/-- Whether the place is inside brackets. -/
def inFlow (l : Layout) : Bool := !l.outer.isEmpty

/-- The least column of what belongs into the innermost block collection. -/
def least (l : Layout) : Nat :=
  match l.columns with
  | [] => 0
  | column :: _ => column + 1

/-- Adds a token. -/
def emit (token : Token) (l : Layout) : Layout := { l with tokens := token :: l.tokens }

/-- Inserts a token behind the first `place` tokens. -/
def insert (place : Nat) (token : Token) (l : Layout) : Layout :=
  { l with tokens := l.tokens.insertIdx (l.tokens.length - place) token }

/-! ### Candidates -/

/-- Gives up the innermost candidate, unless it is required. -/
def dropCandidate? (l : Layout) : Option Layout :=
  if l.candidate.any Candidate.required then none else some { l with candidate := none }

/-- Remembers that a key may begin at a character. -/
def setCandidate? (p : Placed) (l : Layout) : Option Layout :=
  if l.keyAllowed then do
    let l ← l.dropCandidate?
    return { l with candidate := some {
      place := l.tokens.length
      line := p.line
      column := p.column
      required := !l.inFlow && l.columns.head? == some p.column } }
  else some l

/-- Whether a candidate is out of reach at a character. -/
def Candidate.isStale (p : Placed) (candidate : Candidate) : Bool :=
  candidate.line < p.line || candidate.column + keyLimit < p.column

/-- Gives up all candidates that are out of reach at a character. -/
def dropStale? (p : Placed) (l : Layout) : Option Layout :=
  if (l.candidate :: l.outer).any fun c => c.any fun c => Candidate.isStale p c && c.required then
    none
  else
    let fresh (c : Option Candidate) := c.filter fun c => !Candidate.isStale p c
    some { l with candidate := fresh l.candidate, outer := l.outer.map fresh }

/-! ### Block collections -/

/-- Closes the innermost block collections as long as they are beyond a column. -/
def closeBeyond (column : Nat) : List Nat → List Token → List Nat × List Token
  | [], tokens => ([], tokens)
  | inner :: columns, tokens =>
    if column < inner then closeBeyond column columns (.blockEnd :: tokens)
    else (inner :: columns, tokens)

/-- Closes the block collections to which nothing at a column can belong. -/
def closeBlocks (column : Nat) (l : Layout) : Layout :=
  if l.inFlow then l
  else
    let (columns, tokens) := closeBeyond column l.columns l.tokens
    { l with columns, tokens }

/-- Closes all block collections. -/
def closeAll (l : Layout) : Layout :=
  if l.inFlow then l
  else { l with columns := [], tokens := l.columns.map (fun _ => Token.blockEnd) ++ l.tokens }

/-- Opens a block collection at a column, unless there is one. -/
def openBlock (column place : Nat) (token : Token) (l : Layout) : Layout :=
  if l.inFlow ∨ column < l.least then l
  else { l.insert place token with columns := column :: l.columns }

/-- Opens a block collection at a column for a token that follows, where one may begin. -/
def openBlock? (column : Nat) (token : Token) (l : Layout) : Option Layout :=
  if l.inFlow then some l
  else if l.keyAllowed then some (l.openBlock column l.tokens.length token)
  else none

/-! ### Tokens -/

/-- Leaves out white space and comments; whether a key may begin changes with the line. -/
def gap (inFlow keyAllowed inComment : Bool) : List Placed → Bool × List Placed
  | [] => (keyAllowed, [])
  | p :: rest =>
    if isBreak p.char then gap inFlow (keyAllowed || !inFlow) false rest
    else if inComment || p.char == '#' then gap inFlow keyAllowed true rest
    else if p.char == ' ' || (p.char == '\t' && (inFlow || !keyAllowed)) ||
        (p.char == byteOrderMark && p.column == 0) then
      gap inFlow keyAllowed false rest
    else (keyAllowed, p :: rest)

/-- Leaves out white space and comments in front of the next token. -/
def dropGap (l : Layout) : Layout :=
  let (keyAllowed, text) := gap l.inFlow l.keyAllowed false l.text
  { l with keyAllowed, text }

/-- A directive or a document marker, which closes everything outside of brackets. -/
def topLevel? (token : Token) (rest : List Placed) (l : Layout) : Option Layout := do
  let l ← l.closeAll.dropCandidate?
  return { l.emit token with keyAllowed := false, text := rest }

/-- An opening bracket. -/
def openFlow? (p : Placed) (token : Token) (rest : List Placed) (l : Layout) : Option Layout := do
  let l ← l.setCandidate? p
  return { l.emit token with
    candidate := none, outer := l.candidate :: l.outer, keyAllowed := true, text := rest }

/-- A closing bracket. -/
def closeFlow? (token : Token) (rest : List Placed) (l : Layout) : Option Layout := do
  let l ← l.dropCandidate?
  let l := { l.emit token with keyAllowed := false, text := rest }
  return match l.outer with
    | [] => l
    | candidate :: outer => { l with candidate, outer }

/-- A comma. -/
def comma? (rest : List Placed) (l : Layout) : Option Layout := do
  let l ← l.dropCandidate?
  return { l.emit .comma with keyAllowed := true, text := rest }

/-- The hyphen of an item. -/
def item? (p : Placed) (rest : List Placed) (l : Layout) : Option Layout := do
  let l ← l.openBlock? p.column .blockSequence
  let l ← l.dropCandidate?
  return { l.emit .item with keyAllowed := true, text := rest }

/-- The question mark that announces a key. -/
def key? (p : Placed) (rest : List Placed) (l : Layout) : Option Layout := do
  let l ← l.openBlock? p.column .blockMapping
  let l ← l.dropCandidate?
  return { l.emit .key with keyAllowed := !l.inFlow, text := rest }

/-- Announces a key where a candidate stands, and opens its mapping. -/
def announceKey (candidate : Candidate) (l : Layout) : Layout :=
  { (l.insert candidate.place .key).openBlock candidate.column candidate.place .blockMapping with
    candidate := none, keyAllowed := false }

/-- The colon that announces a value. -/
def value? (p : Placed) (rest : List Placed) (l : Layout) : Option Layout := do
  let l ← match l.candidate with
    | some candidate => some (l.announceKey candidate)
    | none =>
      (l.openBlock? p.column .blockMapping).map fun l => { l with keyAllowed := !l.inFlow }
  return { l.emit .value with text := rest }

/-- The characters that may follow a name without white space. -/
def isNameEnd (c : Char) : Bool :=
  c == '?' || c == ':' || c == ',' || c == ']' || c == '}' || c == '%' || c == '@' || c == '\x60'

/-- The name of an anchor or an alias. -/
def name? (text : List Placed) : Option (String × List Placed) := do
  let name := charsWhile isNameChar text
  let rest := afterWhile isNameChar text
  guard (name ≠ [] ∧ (endsWord rest || (next? rest).any isNameEnd))
  return (String.ofList name, rest)

/-- An anchor; its number is how many names of anchors are known. -/
def anchor? (text : List Placed) (l : Layout) : Option Layout := do
  let (name, rest) ← name? text
  let number := l.anchors.length
  return { l.emit (.anchor number) with
    anchors := Keyed.insert l.anchors name number, keyAllowed := false, text := rest }

/-- An alias of an anchor that is known. -/
def alias? (text : List Placed) (l : Layout) : Option Layout := do
  let (name, rest) ← name? text
  let number ← Keyed.lookup l.anchors name
  return { l.emit (.alias number) with keyAllowed := false, text := rest }

/-- A tag. -/
def tag? (text : List Placed) (l : Layout) : Option Layout := do
  let (tag, rest) ← WrittenTag.read? l.inFlow text
  return { l.emit (.tag tag) with keyAllowed := false, text := rest }

/-- A quoted scalar. -/
def quoted? (single : Bool) (text : List Placed) (l : Layout) : Option Layout := do
  let (content, rest) ← Quoted.read? single [] Gap.empty .nothing text
  return { l.emit (.scalar content false) with keyAllowed := false, text := rest }

/-- A plain scalar; a key may begin behind it if it is not on the same line. -/
def plain? (text : List Placed) (l : Layout) : Option Layout := do
  let scalar ← Plain.read? l.inFlow l.least [] Gap.empty text
  return { l.emit (.scalar scalar.content true) with
    keyAllowed := scalar.broken, text := scalar.rest }

/-- A block scalar. -/
def block? (folds : Bool) (text : List Placed) (l : Layout) : Option Layout := do
  let l ← l.dropCandidate?
  let (content, rest) ← Block.read? folds l.least text
  return { l.emit (.scalar content false) with keyAllowed := true, text := rest }

/-- Reads the token that begins with a character. -/
def next? (p : Placed) (rest : List Placed) (l : Layout) : Option Layout :=
  if p.column = 0 ∧ p.char = '%' then do
    let (token, rest) ← Directive.read? rest
    l.topLevel? token rest
  else match marker? (p :: rest), p.char with
    | some c, _ =>
      l.topLevel? (if c = '-' then .documentStart else .documentEnd) (rest.drop 2)
    | none, '[' => l.openFlow? p .flowSequence rest
    | none, '{' => l.openFlow? p .flowMapping rest
    | none, ']' => l.closeFlow? .flowSequenceEnd rest
    | none, '}' => l.closeFlow? .flowMappingEnd rest
    | none, ',' => l.comma? rest
    | none, '*' => do (← l.setCandidate? p).alias? rest
    | none, '&' => do (← l.setCandidate? p).anchor? rest
    | none, '!' => do (← l.setCandidate? p).tag? rest
    | none, '\'' => do (← l.setCandidate? p).quoted? true rest
    | none, '"' => do (← l.setCandidate? p).quoted? false rest
    | none, c =>
      let begins := endsWord rest || (l.inFlow && c != '-')
      if c = '-' ∧ begins then l.item? p rest
      else if c = '?' ∧ begins then l.key? p rest
      else if c = ':' ∧ begins then l.value? p rest
      else if (c = '|' ∨ c = '>') ∧ !l.inFlow then l.block? (c = '>') rest
      else if Plain.isIndicator c then none
      else do (← l.setCandidate? p).plain? (p :: rest)

/-- Reads all tokens; each of them takes at least one character, so the length of the text is
enough. -/
def tokens? : Nat → Layout → Option (List Token)
  | 0, _ => none
  | fuel + 1, l =>
    let l := l.dropGap
    match l.text with
    | [] => l.closeAll.dropCandidate?.map fun l => l.tokens.reverse
    | p :: rest => do
      let l ← l.dropStale? p
      tokens? fuel (← (l.closeBlocks p.column).next? p rest)

end Layout

/-- The tokens of a text. -/
def Token.ofText? (text : String) : Option (List Token) := do
  let text ← Placed.ofText? text
  Layout.tokens? (text.length + 1) { text }

end Componentry.Yaml

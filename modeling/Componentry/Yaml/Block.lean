import Componentry.Yaml.Character
/-!
# Block scalars

A block scalar is an indented block of lines under a header.  The header says whether line breaks
are kept or folded, what becomes of the breaks at the end, and possibly how far the block is
indented; otherwise its first line that is not empty decides.
-/

namespace Componentry.Yaml.Block

/-- What becomes of the line breaks at the end. -/
inductive Chomping where
  /-- All are dropped. -/
  | strip
  /-- The first one stays. -/
  | clip
  /-- All stay. -/
  | keep
  deriving DecidableEq, Repr

/-- The chomping that a character of the header asks for. -/
def Chomping.ofChar? : Char → Option Chomping
  | '-' => some .strip
  | '+' => some .keep
  | _ => none

/-- What the header says. -/
structure Header where
  chomping : Chomping := .clip
  indentation : Option Nat := none
  deriving DecidableEq, Repr

/-- Reads the indicators of a header in either order, each at most once; the digit zero is
refused. -/
def indicators? (header : Header) (chomped : Bool) : List Placed → Option (Header × List Placed)
  | [] => some (header, [])
  | p :: rest =>
    match Chomping.ofChar? p.char with
    | some chomping =>
      if chomped then some (header, p :: rest)
      else if header.indentation.isSome then some ({ header with chomping }, rest)
      else indicators? { header with chomping } true rest
    | none =>
      if p.char = '0' ∧ header.indentation.isNone then none
      else if p.char.isDigit ∧ header.indentation.isNone then
        let header := { header with indentation := some (p.char.toNat - '0'.toNat) }
        if chomped then some (header, rest) else indicators? header chomped rest
      else some (header, p :: rest)

/-- Reads a header with its line break; a comment may stand in it. -/
def header? (text : List Placed) : Option (Header × List Placed) := do
  let (header, text) ← indicators? {} false text
  let text := dropBlanks text
  let text := if startsWith '#' text then dropLine text else text
  if endsLine text then some (header, text.drop 1) else none

/-- The part of a block scalar read so far; characters come most recent first. -/
structure State where
  content : List Char := []
  /-- The column of the lines, once it is known. -/
  column : Option Nat
  /-- The furthest column at which a line without content ended. -/
  widest : Nat := 0
  /-- The break behind the last line with content. -/
  ending : Option Char := none
  /-- The breaks of the empty lines behind it. -/
  empties : List Char := []
  /-- Whether the last line with content began with a blank. -/
  indented : Bool := false

namespace State

/-- Begins a line with content: the breaks in front of it are folded or kept. -/
def beginLine (folds : Bool) (c : Char) (s : State) : State :=
  let joined :=
    if folds && s.ending == some '\n' && !s.indented && !isBlank c then
      (if s.empties.isEmpty then [' '] else [])
    else s.ending.toList
  { s with
    content := s.empties ++ joined ++ s.content
    ending := none
    empties := []
    indented := isBlank c }

/-- The text of a scalar that ends here. -/
def finish (chomping : Chomping) (s : State) : String :=
  let tail := match chomping with
    | .strip => []
    | .clip => s.ending.toList
    | .keep => s.empties ++ s.ending.toList
  String.ofList (tail ++ s.content).reverse

end State

/-- Reads the lines of a block scalar, in the middle of a line with content or else in the
indentation of a line.  A line with content has at least the column `least`. -/
def lines? (folds : Bool) (chomping : Chomping) (least : Nat) (inLine : Bool) (s : State) :
    List Placed → Option (String × List Placed)
  | [] => some (s.finish chomping, [])
  | p :: rest =>
    if inLine then
      if isBreak p.char then
        lines? folds chomping least false { s with ending := some p.char } rest
      else lines? folds chomping least true { s with content := p.char :: s.content } rest
    else
      let indenting := s.column.all fun column => p.column < column
      if indenting && p.char == ' ' then lines? folds chomping least false s rest
      else if indenting && p.char == '\t' then none
      else
        let s := { s with widest := max s.widest p.column }
        if isBreak p.char then
          lines? folds chomping least false { s with empties := p.char :: s.empties } rest
        else
          let column := s.column.getD (max s.widest (max least 1))
          if p.column = column then
            let s := { s with column := some column }.beginLine folds p.char
            lines? folds chomping least true { s with content := p.char :: s.content } rest
          else some (s.finish chomping, p :: rest)

/-- Reads a block scalar behind its first character; `least` is the column that its lines need at
least, one more than the column of the collection around it. -/
def read? (folds : Bool) (least : Nat) (text : List Placed) : Option (String × List Placed) := do
  let (header, text) ← header? text
  lines? folds header.chomping least false
    { column := header.indentation.map fun n => least - 1 + n } text

end Componentry.Yaml.Block

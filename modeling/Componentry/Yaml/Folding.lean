import Componentry.Yaml.Character
/-!
# Folding lines

Plain and quoted scalars may run over several lines.  The white space between two of their words is
a `Gap`: blanks within a line stand for themselves, a single line break becomes a space, and of
several line breaks the first one disappears.  A break that is not a line feed is always kept.
-/

namespace Componentry.Yaml

/-- The white space between two words of a scalar; characters come most recent first. -/
inductive Gap where
  /-- Blanks within one line. -/
  | blanks (read : List Char)
  /-- A line break, which is none if it was escaped, and the breaks of the empty lines behind
  it. -/
  | lines (first : Option Char) (later : List Char)
  deriving DecidableEq, Repr

namespace Gap

/-- No white space at all. -/
def empty : Gap := .blanks []

/-- Adds a blank or a line break; blanks at the end or the start of a line do not count. -/
def push (c : Char) : Gap → Gap
  | .blanks read => if isBreak c then .lines (some c) [] else .blanks (c :: read)
  | .lines first later => if isBreak c then .lines first (c :: later) else .lines first later

/-- Whether the gap leads to another line. -/
def isBroken : Gap → Bool
  | .blanks _ => false
  | .lines _ _ => true

/-- Whether there is no white space. -/
def isEmpty (gap : Gap) : Bool := gap == empty

/-- What a gap stands for, most recent character first. -/
def folded : Gap → List Char
  | .blanks read => read
  | .lines first later =>
    if first = some '\n' then (if later.isEmpty then [' '] else later)
    else later ++ first.toList

end Gap

end Componentry.Yaml

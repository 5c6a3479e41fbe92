import Componentry.Yaml.Folding
/-!
# Plain scalars

A plain scalar has no quotes.  It ends before a colon that ends a word, before a comment, a
document marker and a line that is not indented enough; inside brackets it also ends before the
characters that brackets are made of.
-/

namespace Componentry.Yaml.Plain

/-- The characters that separate the items of a collection in brackets. -/
def isSeparator (c : Char) : Bool :=
  c == ',' || c == '[' || c == ']' || c == '{' || c == '}'

/-- The characters with which no plain scalar begins. -/
def isIndicator (c : Char) : Bool :=
  isBlank c || isBreak c || isSeparator c || c == '#' || c == '&' || c == '*' || c == '!' ||
    c == '|' || c == '>' || c == '\'' || c == '"' || c == '%' || c == '@' || c == '\x60'

/-- A plain scalar that was read. -/
structure Result where
  content : String
  /-- Whether white space with a line break follows, which has been left out. -/
  broken : Bool
  rest : List Placed

/-- Reads a plain scalar.  Its lines have at least the column `least`, which counts in brackets
for tabs only; `content` is what was read so far, most recent character first. -/
def read? (inFlow : Bool) (least : Nat) (content : List Char) (gap : Gap) :
    List Placed → Option Result
  | [] => some ⟨String.ofList content.reverse, gap.isBroken, []⟩
  | p :: rest =>
    if isBlank p.char || isBreak p.char then
      if p.char = '\t' ∧ gap.isBroken ∧ p.column < least then none
      else read? inFlow least content (gap.push p.char) rest
    else if !gap.isEmpty &&
        (p.char == '#' || (marker? (p :: rest)).isSome || (!inFlow && p.column < least)) then
      some ⟨String.ofList content.reverse, gap.isBroken, p :: rest⟩
    else if inFlow && p.char == ':' && (next? rest).any fun c => isSeparator c || c == '?' then
      none
    else if (p.char == ':' && endsWord rest) || (inFlow && isSeparator p.char) then
      some ⟨String.ofList content.reverse, gap.isBroken, p :: rest⟩
    else
      read? inFlow least (p.char :: (gap.folded ++ content)) Gap.empty rest

end Componentry.Yaml.Plain

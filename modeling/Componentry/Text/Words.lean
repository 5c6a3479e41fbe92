import Componentry.Text.Case
/-!
# Words of a name

A name in snake, kebab or camel case is a sequence of words.  `runs` splits it at everything that
is not an ASCII letter or digit; `words` then splits a run where the case of its letters tells that
a new word begins: between a lower and an upper case letter (`textInput`), and before the last
capital of an abbreviation (`HTTPServer`).  A digit belongs to the word around it and carries the
case of the letters before it.  `upperCamelCase` joins the capitalised words.
-/

namespace Componentry.Text

/-- The maximal runs of ASCII letters and digits. -/
def runs (cs : List Char) : List (List Char) :=
  let rec go (run : List Char) : List Char → List (List Char)
    | [] => if run = [] then [] else [run.reverse]
    | c :: rest =>
      if isAsciiAlphanumeric c then go (c :: run) rest
      else if run = [] then go [] rest
      else run.reverse :: go [] rest
  go [] cs

/-- The case of the last letter of the word under way; a fresh word has none. -/
inductive LetterCase where
  | fresh
  | lower
  | upper
  deriving DecidableEq, Repr

/-- The case after one more character: a digit leaves it as it was. -/
def LetterCase.after (current : LetterCase) (c : Char) : LetterCase :=
  if c.isLower then .lower else if c.isUpper then .upper else current

/-- The words of one run; `word` holds the reversed beginning of the word under way. -/
def wordsFrom (current : LetterCase) (word : List Char) : List Char → List (List Char)
  | [] => []
  | [c] => [(c :: word).reverse]
  | c :: next :: rest =>
    if current.after c = .lower && next.isUpper then
      (c :: word).reverse :: wordsFrom .fresh [] (next :: rest)
    else if current = .upper && c.isUpper && next.isLower then
      word.reverse :: wordsFrom .fresh [c] (next :: rest)
    else wordsFrom (current.after c) (c :: word) (next :: rest)

/-- The words of a name, run by run. -/
def words (cs : List Char) : List (List Char) :=
  (runs cs).flatMap (wordsFrom .fresh [])

/-- Upper-cases the first letter and lower-cases the others. -/
def capitalize : List Char → List Char
  | [] => []
  | c :: rest => c.toUpper :: rest.map Char.toLower

/-- The capitalised words of a name without anything between them. -/
def upperCamelCase (s : String) : String :=
  String.ofList ((words s.toList).flatMap capitalize)

end Componentry.Text

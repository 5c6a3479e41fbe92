import Componentry.Text.Blank
/-!
# Cutting texts

The vocabulary for taking a text apart: `splitOn` at every separator, `cut` and `cutLast` at the
first and the last occurrence of a pattern, `stripPrefix` and `stripSuffix` at the ends.  All of
them work on lists of characters, by recursion on the text; the functions on `String` only wrap
them.
-/

namespace Componentry.Text

/-- The pieces between the separators; an empty text is one empty piece. -/
def splitOn (separator : Char) : List Char → List (List Char)
  | [] => [[]]
  | c :: rest =>
    if c = separator then [] :: splitOn separator rest
    else
      match splitOn separator rest with
      | [] => [[c]]
      | piece :: pieces => (c :: piece) :: pieces

/-- The rest of the text behind a prefix. -/
def stripPrefix : List Char → List Char → Option (List Char)
  | [], text => some text
  | _ :: _, [] => none
  | p :: pattern, c :: text => if p = c then stripPrefix pattern text else none

/-- The text in front of a suffix. -/
def stripSuffix (pattern text : List Char) : Option (List Char) :=
  (stripPrefix pattern.reverse text.reverse).map List.reverse

/-- The text before and after the first occurrence of a pattern. -/
def cut (pattern : List Char) : List Char → Option (List Char × List Char)
  | [] => (stripPrefix pattern []).map fun rest => ([], rest)
  | c :: text =>
    match stripPrefix pattern (c :: text) with
    | some rest => some ([], rest)
    | none => (cut pattern text).map fun parts => (c :: parts.1, parts.2)

/-- The text before and after the last occurrence of a pattern. -/
def cutLast (pattern text : List Char) : Option (List Char × List Char) :=
  (cut pattern.reverse text.reverse).map fun parts => (parts.2.reverse, parts.1.reverse)

/-- Whether a pattern occurs in a text. -/
def contains (pattern text : List Char) : Bool :=
  (cut pattern text).isSome

/-! ### On strings -/

/-- The trimmed pieces between commas, without the blank ones. -/
def commaList (s : String) : List String :=
  (((splitOn ',' s.toList).map trimChars).filter (· ≠ [])).map String.ofList

/-- The trimmed pieces between periods. -/
def dottedPath (s : String) : List String :=
  ((splitOn '.' s.toList).map trimChars).map String.ofList

/-- The trimmed parts around the first colon; there is no tail without a colon. -/
def headAndTail (s : String) : String × Option String :=
  match cut [':'] s.toList with
  | some (head, tail) => (String.ofList (trimChars head), some (String.ofList (trimChars tail)))
  | none => (trim s, none)

/-- Whether a text contains another. -/
def hasSubtext (s pattern : String) : Bool :=
  contains pattern.toList s.toList

end Componentry.Text

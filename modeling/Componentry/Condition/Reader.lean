import Componentry.Condition.Basic
import Componentry.Json.Reader
/-!
# Reading conditions

The text of a condition is cut at its connectives from the outside in: first at every `||`, then at
every `&&`, then negations and a pair of parentheses around the rest are taken off, and what is left
is a comparison or a single operand.  A connective counts only at the top level, which `cutTopLevel`
finds: outside of quotes and parentheses.

`Condition.ofText` is the whole reader.  It first refuses texts whose quotes or parentheses do not
match and operators that look like comparisons but are none.
-/

namespace Componentry

/-- What is wrong with the text of a condition, or with the value of a gate. -/
inductive ConditionError where
  | empty
  | unbalanced
  | strictEquality
  | unsupportedOperator
  | missingOperand
  | danglingNegation
  | missingArgument
  | malformedLiteral (text : String)
  | unsupportedOperand (text : String)
  | unsupportedGate (text : String)
  deriving DecidableEq, Repr

/-- The wording of an error. -/
def ConditionError.message : ConditionError → String
  | .empty => "expression cannot be empty"
  | .unbalanced => "unbalanced quotes or parentheses"
  | .strictEquality => "strict equality operators are unsupported; use '==' or '!='"
  | .unsupportedOperator =>
    "unsupported comparison operator; only '==', '!=', '&&', '||', '!' and '.includes(...)' are "
      ++ "supported"
  | .missingOperand => "comparison expression must include both left and right operands"
  | .danglingNegation => "expression cannot end with negation operator"
  | .missingArgument => "includes expression is missing an argument"
  | .malformedLiteral text => "malformed literal '" ++ text ++ "'"
  | .unsupportedOperand text =>
    "unsupported expression '" ++ text
      ++ "'; supported roots are app.*, session.*, event.*, nodes.* and providers.*"
  | .unsupportedGate text => "gate value " ++ text ++ " is not a boolean or expression"

namespace Condition

/-! ### Quotes and parentheses -/

/-- Where a scan of a text is: inside of single or double quotes, and how many parentheses are
open. -/
structure Position where
  singleQuoted : Bool := false
  doubleQuoted : Bool := false
  depth : Nat := 0
  deriving DecidableEq, Repr

namespace Position

/-- Whether the position is inside of quotes. -/
def quoted (p : Position) : Bool := p.singleQuoted || p.doubleQuoted

/-- Whether the position is outside of quotes and parentheses. -/
def isTop (p : Position) : Bool := !p.quoted && p.depth == 0

/-- The position behind a quote or a parenthesis; other characters do not move it. A closing
parenthesis that closes nothing is passed over. -/
def mark? (p : Position) (c : Char) : Option Position :=
  if c = '\'' && !p.doubleQuoted then some { p with singleQuoted := !p.singleQuoted }
  else if c = '"' && !p.singleQuoted then some { p with doubleQuoted := !p.doubleQuoted }
  else if c = '(' && !p.quoted then some { p with depth := p.depth + 1 }
  else if c = ')' && !p.quoted then some { p with depth := p.depth - 1 }
  else none

end Position

/-- Whether all quotes and parentheses of a text are matched. -/
def isBalanced (p : Position) : List Char → Bool
  | [] => p.isTop
  | c :: rest =>
    if c = ')' && !p.quoted && p.depth == 0 then false
    else isBalanced ((p.mark? c).getD p) rest

/-- The text before and after the first top-level occurrence of an operator. -/
def cutTopLevel (operator : List Char) (p : Position) : List Char → Option (List Char × List Char)
  | [] => none
  | c :: rest =>
    let skip (p : Position) :=
      (cutTopLevel operator p rest).map fun parts => (c :: parts.1, parts.2)
    match p.mark? c with
    | some p => skip p
    | none =>
      if p.isTop then
        match Text.stripPrefix operator (c :: rest) with
        | some after => some ([], after)
        | none => skip p
      else skip p

/-- Whether an operator occurs at the top level. -/
def hasTopLevel (operator : String) (text : List Char) : Bool :=
  (cutTopLevel operator.toList {} text).isSome

/-- The trimmed parts between the top-level occurrences of an operator; at most `fuel` are cut
off. Nothing behind the last operator is no part. -/
def partsWithin (operator : List Char) : Nat → List Char → List (List Char)
  | 0, _ => []
  | _ + 1, [] => []
  | fuel + 1, text =>
    match cutTopLevel operator {} text with
    | some (before, after) => Text.trimChars before :: partsWithin operator fuel after
    | none => [Text.trimChars text]

/-- The parts of a text around an operator, if there are at least two. -/
def parts? (operator : String) (text : List Char) : Option (List (List Char)) :=
  match partsWithin operator.toList (text.length + 1) text with
  | first :: second :: rest => some (first :: second :: rest)
  | _ => none

/-- Takes negations and the blanks around them off the front: whether their number is odd, and what
follows. An exclamation mark in front of an equals sign is no negation. -/
def negations (odd : Bool) : List Char → Bool × List Char
  | [] => (odd, [])
  | c :: rest =>
    if c = '!' then
      if rest.head? = some '=' then (odd, c :: rest) else negations (!odd) rest
    else if Text.isBlank c then negations odd rest
    else (odd, c :: rest)

/-- Whether the parentheses of a text are matched when quotes are not regarded. -/
def closesAll (depth : Nat) : List Char → Bool
  | [] => depth == 0
  | '(' :: rest => closesAll (depth + 1) rest
  | ')' :: rest =>
    match depth with
    | 0 => false
    | depth + 1 => closesAll depth rest
  | _ :: rest => closesAll depth rest

/-- The trimmed inside of a pair of parentheses around a whole text. -/
def group? (text : List Char) : Option (List Char) := do
  let inner ← Text.stripSuffix [')'] (← Text.stripPrefix ['('] text)
  if closesAll 0 inner then some (Text.trimChars inner) else none

/-! ### Operands -/

/-- Whether a text starts like a value that is written out. -/
def isWrittenOut (text : List Char) : Bool :=
  match text with
  | [] => false
  | c :: _ =>
    c = '[' || c = '{' || c = '"' || c = '-' || c.isDigit
      || text = "null".toList || text = "true".toList || text = "false".toList

/-- Whether a text is a path: a root and at least one segment of identifier characters. -/
def isPath (text : List Char) : Bool :=
  !text.any Text.isBlank &&
    match Text.splitOn '.' text with
    | root :: segment :: rest =>
      String.ofList root ∈ Scope.roots
        && (segment :: rest).all fun part => part ≠ [] && part.all Text.isNameChar
    | _ => false

/-- The inside of single quotes around a whole text. -/
def quotedText? (text : List Char) : Option (List Char) := do
  Text.stripSuffix ['\''] (← Text.stripPrefix ['\''] text)

/-- Reads an operand. -/
def operand (text : List Char) : Except ConditionError Operand :=
  let text := Text.trimChars text
  if text = [] then .error .missingOperand
  else
    match quotedText? text with
    | some inner => .ok (.literal (.string (String.ofList inner)))
    | none =>
      if isWrittenOut text then
        match Json.ofText? (String.ofList text) with
        | some v => .ok (.literal v)
        | none => .error (.malformedLiteral (String.ofList text))
      else if isPath text then .ok (.path (String.ofList text))
      else .error (.unsupportedOperand (String.ofList text))

/-! ### Comparisons -/

/-- What a test for an item starts with. -/
def includesMark : List Char := ".includes(".toList

/-- Drops all repetitions of a pattern at the front; at most `fuel` of them. -/
def dropRepeated (pattern : List Char) : Nat → List Char → List Char
  | 0, text => text
  | fuel + 1, text =>
    match Text.stripPrefix pattern text with
    | some rest => dropRepeated pattern fuel rest
    | none => text

/-- Reads the two operands of a comparison, none of which may be blank. -/
def comparison (make : Operand → Operand → Condition) (left right : List Char) :
    Except ConditionError Condition :=
  let left := Text.trimChars left
  let right := Text.trimChars right
  if left = [] ∨ right = [] then .error .missingOperand
  else do return make (← operand left) (← operand right)

/-- Reads a test for an item, given the texts before and after its mark. -/
def membership (left right : List Char) : Except ConditionError Condition :=
  let argument := Text.trimChars (dropRepeated includesMark right.length right)
  let argument := Text.trimChars ((Text.stripSuffix [')'] argument).getD argument)
  if argument = [] then .error .missingArgument
  else do return includes (← operand left) (← operand argument)

/-- Reads a comparison, a test for an item, or a single operand. -/
def simple (text : List Char) : Except ConditionError Condition :=
  match cutTopLevel includesMark {} text with
  | some (left, right) => membership left right
  | none =>
    match cutTopLevel ['!', '='] {} text with
    | some (left, right) => comparison differ left right
    | none =>
      match cutTopLevel ['=', '='] {} text with
      | some (left, right) => comparison agree left right
      | none => do return truthy (← operand text)

/-! ### The whole reader -/

/-- Reads a condition that nests at most `fuel` parts and groups. -/
def node : Nat → List Char → Except ConditionError Condition
  | 0, _ => .error .empty
  | fuel + 1, text =>
    match parts? "||" text with
    | some parts => do return any (← parts.mapM (node fuel))
    | none =>
      match parts? "&&" text with
      | some parts => do return all (← parts.mapM (node fuel))
      | none =>
        let (odd, inner) := negations false text
        let inner := Text.trimChars inner
        if inner = [] then .error .danglingNegation
        else do
          let part ← match group? inner with
            | some grouped => node fuel grouped
            | none => simple inner
          return if odd then not part else part

/-- Whether one of several operators occurs at the top level. -/
def hasAnyTopLevel (operators : List String) (text : List Char) : Bool :=
  operators.any fun operator => hasTopLevel operator text

/-- Reads the text of a condition. Parts and groups are shorter than what they are taken from, so
its length bounds how deep they are nested. -/
def ofText (text : String) : Except ConditionError Condition :=
  let text := Text.trimChars text.toList
  if text = [] then .error .empty
  else if !isBalanced {} text then .error .unbalanced
  else if hasAnyTopLevel ["===", "!=="] text then .error .strictEquality
  else if hasAnyTopLevel [">=", "<=", ">", "<"] text then .error .unsupportedOperator
  else node (text.length + 1) text

end Condition

end Componentry

import Componentry.Json.Basic
import Componentry.Yaml.Node
/-!
# Values of nodes

A plain scalar without a tag is read by the core rules: `null`, `true` and `false`, integers in four
bases, decimals, and otherwise a string (`Scalar.plain?`).  Scalars with quotes and block scalars
are strings.  A tag of a core type demands that type; a tag of the document's own has no value.

`Node.toJson?` follows aliases.  Collections may be nested `nestingLimit` deep, aliases included,
and the number of aliases followed is bounded by the size of the document, so that a small document
cannot stand for a huge value.
-/

namespace Componentry.Yaml

namespace Scalar

/-- Whether a text is one of the words for nothing. -/
def isNull (s : String) : Bool := s == "null" || s == "Null" || s == "NULL" || s == "~"

/-- The truth value that a text is. -/
def bool? (s : String) : Option Bool :=
  if s = "true" ∨ s = "True" ∨ s = "TRUE" then some true
  else if s = "false" ∨ s = "False" ∨ s = "FALSE" then some false
  else none

/-- A text without one given sign. -/
def dropSign (signs : List Char) : List Char → List Char
  | c :: rest => if signs.contains c then rest else c :: rest
  | [] => []

/-- The number that digits of a base write; there has to be one. -/
def digits? (base : Nat) (cs : List Char) : Option Nat :=
  let step (n : Nat) (c : Char) : Option Nat :=
    match Json.hexValue? c with
    | some d => if d < base then some (base * n + d) else none
    | none => none
  if cs.isEmpty then none else cs.foldlM step 0

/-- Whether a text is made of digits but begins with a zero that does not count. -/
def hasLeadingZero (cs : List Char) : Bool :=
  match dropSign ['+', '-'] cs with
  | '0' :: rest => !rest.isEmpty && rest.all Char.isDigit
  | _ => false

/-- The absolute value of an integer, of which `cs` is the text without a sign. -/
def magnitude? (cs : List Char) : Option Nat :=
  match cs with
  | '0' :: 'x' :: rest => digits? 16 rest
  | '0' :: 'o' :: rest => digits? 8 rest
  | '0' :: 'b' :: rest => digits? 2 rest
  | cs => if hasLeadingZero cs then none else digits? 10 cs

/-- The integer that a text writes, if it has at most 128 bits. -/
def int? (s : String) : Option Int :=
  match s.toList with
  | '-' :: rest => ((magnitude? rest).filter (· ≤ Nat.pow 2 127)).map fun (n : Nat) => -(n : Int)
  | cs => ((magnitude? (dropSign ['+'] cs)).filter (· < Nat.pow 2 128)).map Int.ofNat

/-- The value of an integer; more than 64 bits have none. -/
def ofInt? (i : Int) : Option Json :=
  if -(Nat.pow 2 63 : Int) ≤ i ∧ i < (Nat.pow 2 64 : Int) then some (.number (.int i)) else none

/-- The value of a text that writes a decimal; infinities and no-numbers become null. -/
def float? (s : String) : Option Json :=
  let unsigned := String.ofList (dropSign ['+'] s.toList)
  if unsigned = ".inf" ∨ unsigned = ".Inf" ∨ unsigned = ".INF" ∨ s = "-.inf" ∨ s = "-.Inf" ∨
      s = "-.INF" ∨ s = ".nan" ∨ s = ".NaN" ∨ s = ".NAN" then some .null
  else match s.toList with
    | '+' :: '+' :: _ | '+' :: '-' :: _ => none
    | cs => (readDecimal? (dropSign ['+'] cs)).map fun x => .number (.float x)

/-- The value of a plain scalar. -/
def plain? (s : String) : Option Json :=
  if s = "" ∨ isNull s then some .null
  else match bool? s, int? s with
    | some b, _ => some (.bool b)
    | none, some i => ofInt? i
    | none, none =>
      if hasLeadingZero s.toList then some (.string s)
      else some ((float? s).getD (.string s))

/-- The value of a scalar with an optional tag. -/
def value? (tag : Option Tag) (s : String) (isPlain : Bool) : Option Json :=
  match tag with
  | some .null => if isNull s then some .null else none
  | some .bool => (bool? s).map .bool
  | some .int => (int? s).bind ofInt?
  | some .float => float? s
  | some .other => some (.string s)
  | some .custom | some .nonSpecific => none
  | none => if isPlain then plain? s else some (.string s)

end Scalar

namespace Node

/-- How deep collections may be nested. -/
def nestingLimit : Nat := 128

/-- How many aliases may be followed for each beginning and end in a document. -/
def aliasesPerWeight : Nat := 100

/-- The node that an alias refers to; the number of aliases that may still be followed goes down
by one. -/
def follow (targets : List (Nat × Node)) : Node → StateT Nat Option Node
  | .alias anchor => do
    match ← get with
    | 0 => failure
    | left + 1 =>
      set left
      (targets.find? fun target => target.1 == anchor).map Prod.snd
  | node => pure node

/-- The text of a scalar that is a key. -/
def key (targets : List (Nat × Node)) (node : Node) : StateT Nat Option String := do
  match ← node.follow targets with
  | .scalar _ content _ => pure content
  | _ => failure

/-- Whether a collection with a tag has a value. -/
def isOrdinary (properties : Properties) : Bool :=
  properties.tag ≠ some .custom ∧ properties.tag ≠ some .nonSpecific

/-- The value of a node with at most `depth` collections inside each other. -/
def value (targets : List (Nat × Node)) : Nat → Node → StateT Nat Option Json
  | depth, node => do
    match depth, ← node.follow targets with
    | _, .scalar properties content plain => Scalar.value? properties.tag content plain
    | depth + 1, .sequence properties items =>
      if isOrdinary properties then
        return .array (← items.mapM (value targets depth))
      else failure
    | depth + 1, .mapping properties entries =>
      if isOrdinary properties then
        let members ← entries.mapM fun entry => do
          return (← entry.1.key targets, ← value targets depth entry.2)
        return .object (Keyed.ofList members)
      else failure
    | _, _ => failure

/-- The value of a document; of several nodes with one anchor the last one counts. -/
def toJson? (node : Node) : Option Json :=
  ((node.value node.anchored.reverse nestingLimit).run (aliasesPerWeight * node.weight)).map
    Prod.fst

end Node

/-- The value of a YAML text. -/
def value? (text : String) : Option Json := do
  (← Node.ofTokens? (← Token.ofText? text)).toJson?

end Componentry.Yaml

import Componentry.Yaml.Layout
/-!
# Nodes

A document is a tree of nodes: scalars, sequences and mappings, each with an optional anchor and
tag, and aliases that refer to anchors.  `Node.read?` assembles a node from tokens by recursion on
the grammar; a node that is left out is an empty plain scalar.  Of four calls inside each other at
least one takes a token, so four times the number of tokens bounds their depth.
-/

namespace Componentry.Yaml

/-- What stands in front of a node. -/
structure Properties where
  anchor : Option Nat := none
  tag : Option Tag := none
  deriving DecidableEq, Repr

/-- A node of a document. -/
inductive Node where
  | alias (anchor : Nat)
  | scalar (properties : Properties) (content : String) (plain : Bool)
  | sequence (properties : Properties) (items : List Node)
  | mapping (properties : Properties) (entries : List (Node × Node))
  deriving Repr

namespace Node

/-- The node that is left out. -/
def empty : Node := .scalar {} "" true

/-! ### Reading -/

/-- Reads the anchor and the tag of a node, in either order and each at most once. -/
def properties? (handles : Handles) : List Token → Option (Properties × List Token)
  | .anchor anchor :: .tag tag :: rest => do
    return (⟨some anchor, Tag.ofBytes? (← tag.bytes? handles)⟩, rest)
  | .tag tag :: .anchor anchor :: rest => do
    return (⟨some anchor, Tag.ofBytes? (← tag.bytes? handles)⟩, rest)
  | .anchor anchor :: rest => some (⟨some anchor, none⟩, rest)
  | .tag tag :: rest => do return (⟨none, Tag.ofBytes? (← tag.bytes? handles)⟩, rest)
  | rest => some ({}, rest)

/-- Where a node stands. -/
inductive Place where
  /-- Between brackets. -/
  | flow
  /-- At the top or in a block sequence. -/
  | block
  /-- In a block mapping, where the items of a sequence need no further indentation. -/
  | member
  deriving DecidableEq, Repr

/-- Whether a node is left out in front of one of the given tokens. -/
def isLeftOut (stops : List Token) (tokens : List Token) : Bool :=
  tokens.head?.any fun token => stops.contains token

mutual

/-- Reads a node. -/
def read? (handles : Handles) : Nat → Place → List Token → Option (Node × List Token)
  | 0, _, _ => none
  | _ + 1, _, .alias anchor :: rest => some (.alias anchor, rest)
  | depth + 1, place, tokens =>
    match properties? handles tokens with
    | none => none
    | some (properties, rest) =>
      match place, rest with
      | .member, .item :: _ =>
        (items? handles depth false rest).map fun read => (.sequence properties read.1, read.2)
      | _, .scalar content plain :: rest =>
        let properties := { properties with
          tag := properties.tag.filter fun tag => tag != .nonSpecific }
        some (.scalar properties content plain, rest)
      | _, .flowSequence :: rest =>
        (flowItems? handles depth true rest).map fun read => (.sequence properties read.1, read.2)
      | _, .flowMapping :: rest =>
        (flowMembers? handles depth true rest).map fun read => (.mapping properties read.1, read.2)
      | .block, .blockSequence :: rest | .member, .blockSequence :: rest =>
        (items? handles depth true rest).map fun read => (.sequence properties read.1, read.2)
      | .block, .blockMapping :: rest | .member, .blockMapping :: rest =>
        (members? handles depth rest).map fun read => (.mapping properties read.1, read.2)
      | _, rest =>
        if rest.length < tokens.length then some (.scalar properties "" true, rest) else none

/-- Reads a node that may be left out in front of some tokens. -/
def optional? (handles : Handles) (depth : Nat) (place : Place) (stops : List Token)
    (tokens : List Token) : Option (Node × List Token) :=
  match depth with
  | 0 => none
  | depth + 1 =>
    if isLeftOut stops tokens then some (empty, tokens) else read? handles depth place tokens

/-- Reads the items of a block sequence; one that has an indentation of its own is closed by a
token, another one ends where no item follows. -/
def items? (handles : Handles) (depth : Nat) (closed : Bool) (tokens : List Token) :
    Option (List Node × List Token) :=
  match depth with
  | 0 => none
  | depth + 1 =>
    match tokens, closed with
    | .item :: rest, _ => do
      let stops := if closed then [.item, .blockEnd] else [.item, .key, .value, .blockEnd]
      let (item, rest) ← optional? handles depth .block stops rest
      let (items, rest) ← items? handles depth closed rest
      return (item :: items, rest)
    | .blockEnd :: rest, true => some ([], rest)
    | _, true => none
    | rest, false => some ([], rest)

/-- Reads the value behind a key, if there is one. -/
def valueOf? (handles : Handles) (depth : Nat) (place : Place) (stops : List Token)
    (tokens : List Token) : Option (Node × List Token) :=
  match depth, tokens with
  | 0, _ => none
  | depth + 1, .value :: rest => optional? handles depth place stops rest
  | _ + 1, rest => some (empty, rest)

/-- Reads the members of a block mapping. -/
def members? (handles : Handles) (depth : Nat) (tokens : List Token) :
    Option (List (Node × Node) × List Token) :=
  match depth, tokens with
  | 0, _ => none
  | depth + 1, .key :: rest => do
    let stops := [.key, .value, .blockEnd]
    let (key, rest) ← optional? handles depth .member stops rest
    let (value, rest) ← valueOf? handles depth .member stops rest
    let (members, rest) ← members? handles depth rest
    return ((key, value) :: members, rest)
  | _ + 1, .blockEnd :: rest => some ([], rest)
  | _ + 1, _ => none

/-- Reads the items of a sequence in brackets; an announced key makes an item a mapping of one
member.  If that key is left out, the token behind its announcement does not count. -/
def flowItems? (handles : Handles) (depth : Nat) (first : Bool) (tokens : List Token) :
    Option (List Node × List Token) :=
  match depth with
  | 0 => none
  | depth + 1 =>
    match tokens with
    | .flowSequenceEnd :: rest => some ([], rest)
    | tokens => do
      let tokens ← match first, tokens with
        | true, tokens => some tokens
        | false, .comma :: rest => some rest
        | false, _ => none
      match tokens with
      | .flowSequenceEnd :: rest => some ([], rest)
      | .key :: rest =>
        let stops := [.comma, .flowSequenceEnd]
        let (key, rest) ←
          if isLeftOut (.value :: stops) rest then some (empty, rest.drop 1)
          else read? handles depth .flow rest
        let (value, rest) ← valueOf? handles depth .flow stops rest
        let (items, rest) ← flowItems? handles depth false rest
        return (.mapping {} [(key, value)] :: items, rest)
      | tokens =>
        let (item, rest) ← read? handles depth .flow tokens
        let (items, rest) ← flowItems? handles depth false rest
        return (item :: items, rest)

/-- Reads the members of a mapping in brackets; a node without a colon is a key. -/
def flowMembers? (handles : Handles) (depth : Nat) (first : Bool) (tokens : List Token) :
    Option (List (Node × Node) × List Token) :=
  match depth with
  | 0 => none
  | depth + 1 =>
    match tokens with
    | .flowMappingEnd :: rest => some ([], rest)
    | tokens => do
      let tokens ← match first, tokens with
        | true, tokens => some tokens
        | false, .comma :: rest => some rest
        | false, _ => none
      match tokens with
      | .flowMappingEnd :: rest => some ([], rest)
      | .key :: rest =>
        let stops := [.comma, .flowMappingEnd]
        let (key, rest) ← optional? handles depth .flow (.value :: stops) rest
        let (value, rest) ← valueOf? handles depth .flow stops rest
        let (members, rest) ← flowMembers? handles depth false rest
        return ((key, value) :: members, rest)
      | tokens =>
        let (key, rest) ← read? handles depth .flow tokens
        let (members, rest) ← flowMembers? handles depth false rest
        return ((key, empty) :: members, rest)

end

/-! ### Documents -/

/-- Reads the directives in front of a document: at most one version, which has to be 1.1 or 1.2,
and handles that differ. -/
def directives? (versioned : Bool) (handles : Handles) :
    List Token → Option (Handles × List Token)
  | .version major minor :: rest =>
    if versioned ∨ major ≠ 1 ∨ (minor ≠ 1 ∧ minor ≠ 2) then none
    else directives? true handles rest
  | .handle name stands :: rest =>
    if (handles.lookup name).isSome then none
    else directives? versioned ((name, stands) :: handles) rest
  | rest => some (handles ++ Handles.predefined, rest)

/-- Whether a token can only stand between documents. -/
def isTopLevel : Token → Bool
  | .version _ _ | .handle _ _ | .documentStart | .documentEnd => true
  | _ => false

/-- Reads a document that may begin with directives and a marker. -/
def document? (tokens : List Token) : Option (Node × List Token) := do
  let depth := 4 * tokens.length + 4
  let (handles, rest) ← directives? false [] tokens
  match rest with
  | .documentStart :: rest =>
    if rest.head?.all isTopLevel then some (empty, rest) else read? handles depth .block rest
  | rest =>
    if rest.length < tokens.length then none else read? handles depth .block rest

/-- The only document of a text; a text without tokens has an empty one. -/
def ofTokens? (tokens : List Token) : Option Node := do
  if tokens.isEmpty then return empty
  let (node, rest) ← document? tokens
  guard (rest.all (· == .documentEnd))
  return node

/-! ### Anchors -/

mutual

/-- The nodes with anchors, in the order in which they begin. -/
def anchored : Node → List (Nat × Node)
  | .alias _ => []
  | .scalar properties content plain =>
    (properties.anchor.map fun n => (n, Node.scalar properties content plain)).toList
  | .sequence properties items =>
    (properties.anchor.map fun n => (n, Node.sequence properties items)).toList ++
      anchoredItems items
  | .mapping properties entries =>
    (properties.anchor.map fun n => (n, Node.mapping properties entries)).toList ++
      anchoredEntries entries

/-- The nodes with anchors among items. -/
def anchoredItems : List Node → List (Nat × Node)
  | [] => []
  | item :: rest => anchored item ++ anchoredItems rest

/-- The nodes with anchors among entries. -/
def anchoredEntries : List (Node × Node) → List (Nat × Node)
  | [] => []
  | (key, value) :: rest => anchored key ++ anchored value ++ anchoredEntries rest

end

mutual

/-- How many beginnings and ends a node consists of; scalars and aliases count once. -/
def weight : Node → Nat
  | .alias _ => 1
  | .scalar _ _ _ => 1
  | .sequence _ items => 2 + weightItems items
  | .mapping _ entries => 2 + weightEntries entries

/-- The weight of items. -/
def weightItems : List Node → Nat
  | [] => 0
  | item :: rest => weight item + weightItems rest

/-- The weight of entries. -/
def weightEntries : List (Node × Node) → Nat
  | [] => 0
  | (key, value) :: rest => weight key + weight value + weightEntries rest

end

end Node

end Componentry.Yaml

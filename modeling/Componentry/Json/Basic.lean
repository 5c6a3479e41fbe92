import Componentry.Keyed
import Componentry.Number.Numeral
/-!
# JSON values

`Json` is the dynamic value of this library: attributes, payloads, stores and documents are made
of it.  Objects are keyed lists, so they remember the order in which their keys appeared; two
objects are nevertheless *the same* value when they agree as maps (`Json.same`).

`Json.atPath?` follows a path through nested values: a segment is a key of an object or a position
of an array.
-/

namespace Componentry

/-- A JSON value; the members of an object stay in order. -/
inductive Json where
  | null
  | bool (value : Bool)
  | number (value : Number)
  | string (value : String)
  | array (items : List Json)
  | object (members : List (String × Json))
  deriving Repr, Inhabited

/-- Named values in order, such as the attributes of an entity. -/
abbrev Attributes : Type := Keyed String Json

namespace Json

/-! ### Deciding equality -/

mutual

/-- Decides whether two values are equal, member order included. -/
def decEq : (v w : Json) → Decidable (v = w)
  | .null, .null => isTrue rfl
  | .bool a, .bool b =>
    if h : a = b then isTrue (by rw [h]) else isFalse (by intro e; injection e; contradiction)
  | .number a, .number b =>
    if h : a = b then isTrue (by rw [h]) else isFalse (by intro e; injection e; contradiction)
  | .string a, .string b =>
    if h : a = b then isTrue (by rw [h]) else isFalse (by intro e; injection e; contradiction)
  | .array a, .array b =>
    match decEqItems a b with
    | isTrue h => isTrue (by rw [h])
    | isFalse h => isFalse (by intro e; injection e; contradiction)
  | .object a, .object b =>
    match decEqMembers a b with
    | isTrue h => isTrue (by rw [h])
    | isFalse h => isFalse (by intro e; injection e; contradiction)
  | .null, .bool _ | .null, .number _ | .null, .string _ | .null, .array _ | .null, .object _
  | .bool _, .null | .bool _, .number _ | .bool _, .string _ | .bool _, .array _
  | .bool _, .object _ | .number _, .null | .number _, .bool _ | .number _, .string _
  | .number _, .array _ | .number _, .object _ | .string _, .null | .string _, .bool _
  | .string _, .number _ | .string _, .array _ | .string _, .object _ | .array _, .null
  | .array _, .bool _ | .array _, .number _ | .array _, .string _ | .array _, .object _
  | .object _, .null | .object _, .bool _ | .object _, .number _ | .object _, .string _
  | .object _, .array _ => isFalse (by intro e; cases e)

/-- Decides whether two lists of values are equal. -/
def decEqItems : (vs ws : List Json) → Decidable (vs = ws)
  | [], [] => isTrue rfl
  | [], _ :: _ | _ :: _, [] => isFalse (by intro e; cases e)
  | v :: vs, w :: ws =>
    match decEq v w, decEqItems vs ws with
    | isTrue h, isTrue hs => isTrue (by rw [h, hs])
    | isFalse h, _ => isFalse (by intro e; injection e; contradiction)
    | _, isFalse h => isFalse (by intro e; injection e; contradiction)

/-- Decides whether two lists of members are equal. -/
def decEqMembers : (vs ws : List (String × Json)) → Decidable (vs = ws)
  | [], [] => isTrue rfl
  | [], _ :: _ | _ :: _, [] => isFalse (by intro e; cases e)
  | (k, v) :: vs, (l, w) :: ws =>
    if hk : k = l then
      match decEq v w, decEqMembers vs ws with
      | isTrue h, isTrue hs => isTrue (by rw [hk, h, hs])
      | isFalse h, _ => isFalse (by intro e; injection e with e; injection e; contradiction)
      | _, isFalse h => isFalse (by intro e; injection e; contradiction)
    else isFalse (by intro e; injection e with e; injection e; contradiction)

end

instance : DecidableEq Json := decEq

/-! ### The same value -/

mutual

/-- Whether two values are the same: objects agree as maps, and both zeros are one number. -/
def same : Json → Json → Bool
  | .null, .null => true
  | .bool a, .bool b => a == b
  | .number a, .number b => a.same b
  | .string a, .string b => a == b
  | .array a, .array b => sameItems a b
  | .object a, .object b => a.length == b.length && sameMembers a b
  | _, _ => false

/-- Whether two lists hold the same values place by place. -/
def sameItems : List Json → List Json → Bool
  | [], [] => true
  | v :: vs, w :: ws => same v w && sameItems vs ws
  | _, _ => false

/-- Whether every member of the first list has the same value in the second. -/
def sameMembers : List (String × Json) → List (String × Json) → Bool
  | [], _ => true
  | (k, v) :: rest, members =>
    (match Keyed.lookup members k with
      | some w => same v w
      | none => false) && sameMembers rest members

end

/-! ### Parts -/

/-- The text of a string value. -/
def string? : Json → Option String
  | .string s => some s
  | _ => none

/-- The members of an object value. -/
def object? : Json → Option (List (String × Json))
  | .object members => some members
  | _ => none

/-- Whether the value is an object. -/
def isObject : Json → Bool
  | .object _ => true
  | _ => false

/-- The member of an object under a key; other values have no members. -/
def member? (v : Json) (key : String) : Option Json :=
  match v with
  | .object members => Keyed.lookup members key
  | _ => none

/-- The position written as decimal digits, with an optional plus sign. -/
def position? (segment : String) : Option Nat :=
  let digits := match segment.toList with
    | '+' :: rest => rest
    | all => all
  match Numeral.spanDigits digits with
  | (first :: rest, []) => some (Numeral.valueOf (first :: rest))
  | _ => none

/-- One step of a path: a key of an object or a position of an array. -/
def child? (v : Json) (segment : String) : Option Json :=
  match v with
  | .object members => Keyed.lookup members segment
  | .array items => (position? segment).bind fun i => items[i]?
  | _ => none

/-- Follows a path through nested values. -/
def atPath? (v : Json) : List String → Option Json
  | [] => some v
  | segment :: rest => (v.child? segment).bind fun w => w.atPath? rest

theorem atPath?_append (v : Json) (first second : List String) :
    v.atPath? (first ++ second) = (v.atPath? first).bind fun w => w.atPath? second := by
  induction first generalizing v with
  | nil => rfl
  | cons segment rest ih =>
    simp only [List.cons_append, atPath?]
    cases v.child? segment with
    | none => rfl
    | some w => simpa using ih w

end Json

/-- The value found in attributes: all of them for the empty path, otherwise the value that the
rest of the path leads to below the first key. -/
def Attributes.atPath? (attributes : Attributes) : List String → Option Json
  | [] => some (.object attributes)
  | key :: rest => (Keyed.lookup attributes key).bind fun value => value.atPath? rest

end Componentry

import Componentry.Json.Basic
/-!
# Decoding values

A `Decoder α` reads an `α` from a value or refuses it.  Records are read from an object, where
unknown members do not matter and a known one may not be repeated, or from an array that lists the
fields in order.  A choice between names is read from the name or from an object whose only member
is the name with the value `null`.
-/

namespace Componentry

/-- Reads a value of some type, or refuses. -/
abbrev Decoder (α : Type) : Type := Json → Option α

namespace Decoder

variable {α : Type}

/-- A string. -/
def string : Decoder String := Json.string?

/-- A boolean. -/
def bool : Decoder Bool
  | .bool b => some b
  | _ => none

/-- A natural number below a limit. -/
def natBelow (limit : Nat) : Decoder Nat
  | .number n => n.toNat?.filter (· < limit)
  | _ => none

/-- Any value. -/
def any : Decoder Json := some

/-- Null, or what another decoder reads. -/
def nullable (decode : Decoder α) : Decoder (Option α)
  | .null => some none
  | v => (decode v).map some

/-- An array of what another decoder reads. -/
def list (decode : Decoder α) : Decoder (List α)
  | .array items => items.mapM decode
  | _ => none

/-- An object as a map from keys to what another decoder reads. -/
def keyed {κ : Type} [DecidableEq κ] (key : String → Option κ) (decode : Decoder α) :
    Decoder (Keyed κ α)
  | .object members => do
    let entries ← members.mapM fun member => do return (← key member.1, ← decode member.2)
    return Keyed.ofList entries
  | _ => none

/-- An object as a map from keys to values. -/
def attributes : Decoder Attributes := keyed some any

/-- One of several names. -/
def name (ofName? : String → Option α) : Decoder α
  | .string s => ofName? s
  | .object [(s, .null)] => ofName? s
  | _ => none

/-- The fields of a record with the given field names. -/
def fields (names : List String) : Decoder (Keyed String Json)
  | .object members =>
    if names.all fun name => (members.filter fun member => member.1 = name).length ≤ 1 then
      some members
    else none
  | .array items => if items.length ≤ names.length then some (names.zip items) else none
  | _ => none

/-- A field that has to be there. -/
def required (record : Keyed String Json) (name : String) (decode : Decoder α) : Option α :=
  (record.lookup name).bind decode

/-- A field that has a default. -/
def optional (record : Keyed String Json) (name : String) (decode : Decoder α) (default : α) :
    Option α :=
  match record.lookup name with
  | none => some default
  | some v => decode v

end Decoder

end Componentry

import Componentry.Build.Problem
import Componentry.Keyed
import Componentry.Text.Cut
/-!
# The attributes of a declaration

An entity starts with attributes from several layers, of which the later win: the style bundles that
the declaration names, the shorthand keys `value` and `orientation` with the keys of providers, and
the object under `attributes`.  `layers` lists them and `collected` merges them; what is wrong with
a layer is reported by `faults` and does not disturb the others.

Durations are read here as well: milliseconds are written as numbers or texts and kept in
microseconds.
-/

namespace Componentry.Declared

/-- Keys that any declaration may use in place of an entry of `attributes`. -/
def shorthandKeys : List String := ["value", "orientation"]

/-- Keys that a provider may use in place of an entry of `attributes`. -/
def providerKeys : List String := ["parameters", "headers", "attachments", "entity"]

/-- The names of the style bundles of a declaration. -/
def styleNames (own : Attributes) : List String :=
  match own.lookup "style" with
  | some (.string names) => Text.commaList names
  | _ => []

/-- The members of a declaration under the given keys, in the order of the keys. -/
def entries (own : Attributes) (keys : List String) : Attributes :=
  keys.filterMap fun key => (own.lookup key).map fun value => (key, value)

/-- The sources of the attributes of a declaration, the weakest first. -/
def layers (styles : Keyed String Attributes) (extraKeys : List String) (own : Attributes) :
    List Attributes :=
  (styleNames own).filterMap styles.lookup
    ++ [entries own (shorthandKeys ++ extraKeys),
        ((own.lookup "attributes").bind Json.object?).getD []]

/-- The attributes of a declaration. -/
def collected (styles : Keyed String Attributes) (extraKeys : List String) (own : Attributes) :
    Attributes :=
  (layers styles extraKeys own).foldl Keyed.extend []

/-- What is wrong with the sources of the attributes. -/
def faults (styles : Keyed String Attributes) (own : Attributes) : List BuildFault :=
  (match own.lookup "style" with
    | none => []
    | some (.string _) =>
      ((styleNames own).filter fun name => !styles.contains name).map fun name =>
        .malformed ("unknown style '" ++ name ++ "'")
    | some _ => [.malformed "'style' must be a comma separated list of style names"])
  ++ match own.lookup "attributes" with
    | none | some (.object _) => []
    | some _ => [.malformed "'attributes' must be an object"]

/-- The greatest duration, in microseconds. -/
def longest : Nat := Nat.pow 2 64 - 1

/-- A number of milliseconds in whole microseconds, the nearest and at most the longest; negative
numbers are none. -/
def micros? (millis : Binary64) : Option Nat :=
  if millis.negative && !millis.isZero then none
  else
    match (Binary64.ofNat 1000).bind millis.mul with
    | none => some longest
    | some x => some (min x.roundHalfUp longest)

/-- The duration that a value stands for. -/
def duration? : Json → Option Nat
  | .number n => n.toBinary64?.bind micros?
  | .string s => (readDecimal? (Text.trimChars s.toList)).bind micros?
  | _ => none

/-- The duration under a key, and what is wrong with it. -/
def durationAt (own : Attributes) (key : String) : List BuildFault × Option Nat :=
  match own.lookup key with
  | none => ([], none)
  | some v =>
    match duration? v with
    | some micros => ([], some micros)
    | none =>
      ([.malformed ("'" ++ key ++ "' must be a non-negative number of milliseconds")], none)

end Componentry.Declared

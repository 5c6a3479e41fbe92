import Componentry.Yaml.Tag
/-!
# Tokens

What a YAML text is made of once its indentation has been understood: block collections have a
beginning and an end like those in brackets, and every key is announced.  Anchors and aliases carry
numbers in place of their names.
-/

namespace Componentry.Yaml

/-- What a text is made of. -/
inductive Token where
  | version (major minor : Nat)
  | handle (name : String) (stands : List UInt8)
  | documentStart
  | documentEnd
  | blockSequence
  | blockMapping
  | blockEnd
  | flowSequence
  | flowSequenceEnd
  | flowMapping
  | flowMappingEnd
  /-- The hyphen in front of an item of a block sequence. -/
  | item
  /-- A comma. -/
  | comma
  /-- Announces a key. -/
  | key
  /-- Announces a value. -/
  | value
  | alias (anchor : Nat)
  | anchor (number : Nat)
  | tag (written : WrittenTag)
  | scalar (content : String) (plain : Bool)
  deriving DecidableEq, Repr

end Componentry.Yaml

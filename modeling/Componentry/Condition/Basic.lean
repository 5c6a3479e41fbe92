import Componentry.Scope
import Componentry.Vocabulary
/-!
# Conditions

A `Condition` is a boolean combination of comparisons over a scope.  `holds` says whether it holds;
it always has an answer, since a path that leads nowhere is null, and null is false.  Whatever can
be wrong with a condition is wrong with its text, and is found when that is read.
-/

namespace Componentry

/-- What is compared: a value that stands for itself, or a path into the scope. -/
inductive Operand where
  | literal (value : Json)
  | path (path : String)
  deriving DecidableEq, Repr

/-- A condition over a scope. -/
inductive Condition where
  /-- One of the parts holds. -/
  | any (parts : List Condition)
  /-- All of the parts hold. -/
  | all (parts : List Condition)
  | not (part : Condition)
  /-- Two operands agree. -/
  | agree (left right : Operand)
  /-- Two operands do not agree. -/
  | differ (left right : Operand)
  /-- A list has an item, or a text a part. -/
  | includes (container item : Operand)
  /-- An operand counts as true. -/
  | truthy (operand : Operand)
  deriving Repr

namespace Json

/-- The text by which values of different kinds are compared; only texts, numbers and booleans
have one. -/
def scalarText? : Json → Option String
  | .string s => some s
  | .number n => some n.render
  | .bool b => some (if b then "true" else "false")
  | _ => none

/-- Whether two values are the same or have the same scalar text. -/
def agrees (v w : Json) : Bool :=
  v.same w ||
    match v.scalarText?, w.scalarText? with
    | some s, some t => s == t
    | _, _ => false

/-- Whether a value counts as true: it is neither empty nor zero nor a text that spells `false`. -/
def isTruthy : Json → Bool
  | .null => false
  | .bool b => b
  | .number n => !n.isZero
  | .string s => s ≠ "" && Vocabulary.boolLiteral? s ≠ some false
  | .array items => !items.isEmpty
  | .object members => !members.isEmpty

/-- Whether a list has an item that agrees, or a text a part with the scalar text. -/
def includesItem (container item : Json) : Bool :=
  match container with
  | .array items => items.any fun v => v.agrees item
  | .string s =>
    match item.scalarText? with
    | some t => Text.hasSubtext s t
    | none => false
  | _ => false

end Json

/-- The value of an operand; a path that leads nowhere is null. -/
def Operand.value (scope : Scope) : Operand → Json
  | .literal v => v
  | .path p => (scope.lookup? p).getD .null

namespace Condition

mutual

/-- Whether a condition holds in a scope. -/
def holds (scope : Scope) : Condition → Bool
  | any parts => anyHolds scope parts
  | all parts => allHold scope parts
  | not part => !holds scope part
  | agree left right => (left.value scope).agrees (right.value scope)
  | differ left right => !(left.value scope).agrees (right.value scope)
  | includes container item => (container.value scope).includesItem (item.value scope)
  | truthy operand => (operand.value scope).isTruthy

/-- Whether one of several conditions holds. -/
def anyHolds (scope : Scope) : List Condition → Bool
  | [] => false
  | part :: rest => holds scope part || anyHolds scope rest

/-- Whether all of several conditions hold. -/
def allHold (scope : Scope) : List Condition → Bool
  | [] => true
  | part :: rest => holds scope part && allHold scope rest

end

theorem anyHolds_eq_any (scope : Scope) (parts : List Condition) :
    anyHolds scope parts = parts.any (holds scope) := by
  induction parts with
  | nil => rfl
  | cons part rest ih => simp [anyHolds, ih]

theorem allHold_eq_all (scope : Scope) (parts : List Condition) :
    allHold scope parts = parts.all (holds scope) := by
  induction parts with
  | nil => rfl
  | cons part rest ih => simp [allHold, ih]

end Condition

end Componentry

import Componentry.Condition.Reader
import Componentry.Json.Printer
import Componentry.Request
/-!
# Gates

A gate is the value of `if` or `enabled` in a declaration: a boolean, a number, or the text of a
condition, with or without double braces around it.  An absent gate is open.  `Gate.isOpen` decides
a gate in a scope; the text of a condition is decided by an `Evaluator`, which a host may replace.
-/

namespace Componentry

/-- Decides the text of a condition in a scope. -/
abbrev Evaluator : Type := String → Scope → Except ConditionError Bool

/-- The usual evaluator: reads the condition and says whether it holds. -/
def Evaluator.standard : Evaluator := fun text scope => do
  return (← Condition.ofText text).holds scope

namespace Gate

/-- Whether a gate is open. -/
def isOpen (evaluator : Evaluator) (scope : Scope) :
    Option Json → Except ConditionError Bool
  | none | some .null => .ok true
  | some (.bool b) => .ok b
  | some (.number n) => .ok (!n.isZero)
  | some (.string text) =>
    let expression := (Vocabulary.embeddedExpression? text).getD text
    match Vocabulary.boolLiteral? expression with
    | some b => .ok b
    | none => evaluator expression scope
  | some v => .error (.unsupportedGate v.compact)

/-- How a gate is quoted in messages. -/
def text : Json → String
  | .string s => s
  | v => v.compact

end Gate

end Componentry

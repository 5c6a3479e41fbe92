import Componentry.Condition.Reader
import Componentry.Registry.Basic
/-!
# Build problems

A document is built as far as it goes; what could not be built is reported as a `BuildProblem` with
the path of the declaration.  A path names the listings and positions that lead to a declaration,
such as `view/controls[2]/actions[0]`.
-/

namespace Componentry

/-- What is wrong with a declaration. -/
inductive BuildFault where
  | unknownType (category : Category) (typeName : String)
  | malformed (reason : String)
  | duplicateId (id : String)
  /-- The factory of the type refused with a message. -/
  | refused (typeName message : String)
  /-- The `if` gate could not be evaluated. -/
  | gate (expression : String) (error : ConditionError)
  deriving DecidableEq, Repr

/-- A fault with the path of the declaration. -/
structure BuildProblem where
  path : String
  fault : BuildFault
  deriving DecidableEq, Repr

/-- The wording of a fault. -/
def BuildFault.message : BuildFault → String
  | .unknownType category typeName => "unknown " ++ category.name ++ " type '" ++ typeName ++ "'"
  | .malformed reason => "malformed declaration: " ++ reason
  | .duplicateId id => "id '" ++ id ++ "' is already in use; this entity is not addressable by it"
  | .refused typeName message => "failed to construct '" ++ typeName ++ "': " ++ message
  | .gate expression error =>
    "condition '" ++ expression ++ "' could not be evaluated: " ++ error.message

/-- The wording of a problem. -/
def BuildProblem.message (problem : BuildProblem) : String :=
  problem.path ++ ": " ++ problem.fault.message

/-- The fault that a refusal of the registry is. -/
def BuildFault.ofRegistry : RegistryError → BuildFault
  | .unknownType category typeName _ => .unknownType category typeName
  | .invalidTypeName category typeName => .unknownType category typeName
  | e => .malformed e.message

end Componentry

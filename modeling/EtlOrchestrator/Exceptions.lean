import Mathlib.Data.Nat.Notation

/-!
# The exceptions of the framework

Every error of the framework is an `OrchestrationError`, so that one `except`
clause catches them all. The errors about a workflow's graph form the family
`WorkflowValidationError`, and each carries the list of the problems found.

`PyError` adds the exceptions from outside the framework that its code lets
through or handles: the `ValidationError` of a model's constructor, the errors
of float and date arithmetic, and whatever a task's callable raises.
-/

set_option autoImplicit false

namespace EtlOrchestrator

/-- The framework's own exceptions. -/
inductive OrchestrationError where
  | workflowValidation (errors : List String)
  | duplicateTask (taskId : String)
  | unknownTask (taskId : String)
  | selfDependency (taskId : String)
  | dependencyCycle (cycle : List String)
  | stateTransition (current target kind : String)
  | engineConfiguration (message : String)
  | workflowConfig (message : String)
deriving DecidableEq, Repr

namespace OrchestrationError

/-- `WorkflowValidationError.errors`: the problems an error of that family
carries. The other errors carry none. -/
def errors : OrchestrationError → List String
  | workflowValidation errors => errors
  | duplicateTask taskId => [s!"duplicate task id: '{taskId}'"]
  | unknownTask taskId => [s!"unknown task id: '{taskId}'"]
  | selfDependency taskId => [s!"task '{taskId}' cannot depend on itself"]
  | dependencyCycle cycle => ["dependency cycle: " ++ " -> ".intercalate cycle]
  | stateTransition _ _ _ | engineConfiguration _ | workflowConfig _ => []

/-- `str(exc)`. -/
def str : OrchestrationError → String
  | stateTransition current target kind => s!"invalid {kind} transition: {current} -> {target}"
  | engineConfiguration message => message
  | workflowConfig message => message
  | error => "workflow validation failed: " ++ "; ".intercalate error.errors

/-- `type(exc).__name__`. -/
def typeName : OrchestrationError → String
  | workflowValidation _ => "WorkflowValidationError"
  | duplicateTask _ => "DuplicateTaskError"
  | unknownTask _ => "UnknownTaskError"
  | selfDependency _ => "SelfDependencyError"
  | dependencyCycle _ => "DependencyCycleError"
  | stateTransition _ _ _ => "StateTransitionError"
  | engineConfiguration _ => "EngineConfigurationError"
  | workflowConfig _ => "WorkflowConfigError"

end OrchestrationError

/-- An exception that is an `Exception`: one of the framework's, or another. -/
inductive PyError where
  | orchestration (error : OrchestrationError)
  /-- The `ValidationError` of a model, which is a `ValueError`. -/
  | validationError (message : String)
  | valueError (message : String)
  | overflowError (message : String)
  | runtimeError (message : String)
  | keyError (key : String)
  | other (typeName message : String)
deriving DecidableEq, Repr

namespace PyError

/-- Whether `except OrchestrationError` catches the exception. -/
def isOrchestrationError : PyError → Bool
  | orchestration _ => true
  | _ => false

/-- `type(exc).__name__`. -/
def typeName : PyError → String
  | orchestration error => error.typeName
  | validationError _ => "ValidationError"
  | valueError _ => "ValueError"
  | overflowError _ => "OverflowError"
  | runtimeError _ => "RuntimeError"
  | keyError _ => "KeyError"
  | other typeName _ => typeName

/-- `str(exc)`. -/
def str : PyError → String
  | orchestration error => error.str
  | validationError message | valueError message | overflowError message
  | runtimeError message => message
  | keyError key => s!"'{key}'"
  | other _ message => message

/-- `f"{type(exc).__name__}: {exc}"`. -/
def text (error : PyError) : String := s!"{error.typeName}: {error.str}"

end PyError

end EtlOrchestrator

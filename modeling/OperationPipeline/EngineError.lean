set_option autoImplicit false

/-! # Engine errors

What makes a call end without an outcome: an operation that was declared or configured wrongly. The
faults that handlers raise are not among them; those are recorded in the outcome. The one exception
is `outputOnFailure`, which asking a failed outcome for its output raises and which is an ordinary
fault of whoever asked. -/

namespace OperationPipeline

/-- An error of the engine itself. -/
inductive EngineError where
  /-- A `validate` step answered with something that is no outcome and no verdict. -/
  | unrecognizedVerdict (step found : String)
  /-- An `operation` step answered with something that is no outcome. -/
  | wrongOperationAnswer (step found : String)
  /-- An `operations` step answered with something that is no list of outcomes. -/
  | wrongOperationsAnswer (step found : String)
  /-- Instructions were declared after the list was first used. -/
  | definitionFrozen (operation : String)
  /-- A transaction was met without a backend to run it. -/
  | transactionBackendMissing (operation : String)
  /-- A configuration option holds a value that is not allowed. -/
  | invalidConfig (option message : String)
  /-- The output of a failed outcome was asked for. -/
  | outputOnFailure
  deriving DecidableEq, Inhabited

namespace EngineError

/-- The text of an error. -/
def message : EngineError → String
  | .unrecognizedVerdict step found =>
    "Step '" ++ step ++ "' is declared with `validate` but returned " ++ found
      ++ "; expected an OperationResult or a validation outcome"
  | .wrongOperationAnswer step found =>
    "Step '" ++ step ++ "' is declared with `operation` but returned " ++ found
      ++ "; expected an OperationResult"
  | .wrongOperationsAnswer step found =>
    "Step '" ++ step ++ "' is declared with `operations` but returned " ++ found
      ++ "; have to return a Vec of OperationResult"
  | .definitionFrozen operation =>
    "Definition of '" ++ operation
      ++ "' is frozen: instructions cannot be declared after the first call"
  | .transactionBackendMissing operation =>
    "Operation '" ++ operation
      ++ "' declares a transaction but no transaction backend is configured"
  | .invalidConfig option message =>
    "Invalid configuration for '" ++ option ++ "': " ++ message
  | .outputOnFailure => "Cannot retrieve output from a Failure."

/-- Whether the error describes a wrongly declared or configured operation. Such errors escape
    every enclosing call. -/
def isAuthoring : EngineError → Bool
  | .outputOnFailure => false
  | _ => true

theorem isAuthoring_eq_false_iff (error : EngineError) :
    error.isAuthoring = false ↔ error = .outputOnFailure := by
  cases error <;> simp [isAuthoring]

end EngineError

end OperationPipeline

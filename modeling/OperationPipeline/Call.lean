import OperationPipeline.Arguments
import OperationPipeline.Context
import OperationPipeline.Outcome.Basic

set_option autoImplicit false

/-! # The state of a call

A call starts with its arguments, an empty context and an empty outcome. Its steps change the
context and the outcome, and any of them may finish the call before its end without failing it.

This is all that an instance of an operation holds here. An operation with fields of its own, or one
that has filled its context or its outcome before its first step, is not covered. -/

namespace OperationPipeline

/-- The state of one call of an operation. -/
structure Call where
  arguments : Arguments := {}
  context : Context := {}
  outcome : Outcome := {}
  finished : Bool := false
  deriving Inhabited

namespace Call

/-- The state at the beginning of a call: there is nothing yet but the arguments. -/
def start (arguments : Arguments) : Call := { arguments }

/-- Ends the call after the current instruction. -/
def finish (call : Call) : Call := { call with finished := true }

/-- Changes the outcome. -/
def mapOutcome (f : Outcome → Outcome) (call : Call) : Call :=
  { call with outcome := f call.outcome }

/-- Records the output of a step in the context. -/
def recordOutput (call : Call) (step : String) (output : Json) : Call :=
  { call with context := call.context.recordOutput step output }

end Call

end OperationPipeline

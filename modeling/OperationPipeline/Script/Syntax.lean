import OperationPipeline.Answer
import OperationPipeline.Definition
import OperationPipeline.Outcome.Edit
import OperationPipeline.Script.Check
import OperationPipeline.Script.ContextRequest
import OperationPipeline.Walk.Collaborator

set_option autoImplicit false

/-! # Scripted operations

Operations whose handlers are given as data. The handler of a step is a list of actions on its call
and a way to answer; actions reach everything that a handler can do, so whole scenarios of nested
calls, declarations and configurations can be written down, run and compared. Collaborators are
given by name: each name stands for one way to deal with a block or a fault. -/

namespace OperationPipeline.Script

/-! ## Collaborators -/

/-- What a transaction backend makes of the answer of its block at the end. -/
inductive Closing where
  /-- Returns it as it is. -/
  | unchanged
  /-- Fails to commit what went through. -/
  | failingCommit
  /-- Takes an error for success. -/
  | swallowing
  /-- Adds a context to an error. -/
  | wrapping
  /-- Returns another error instead. -/
  | replacing
  deriving DecidableEq

/-- A transaction backend. -/
inductive TransactionStub where
  /-- Only runs the block. -/
  | passthrough
  /-- Fails before it runs the block. -/
  | failing (fault : Fault)
  /-- Succeeds without running the block. -/
  | idle
  /-- Runs the block once. -/
  | once (closing : Closing)
  /-- Runs the block, and again if it went through. -/
  | twice
  deriving DecidableEq

/-- An instrumentation backend. -/
inductive InstrumentationStub where
  /-- Opens a span around the block. -/
  | tracing
  /-- Runs the block once. -/
  | recording
  /-- Skips the block of the trace of the given name, or every block if there is no name. -/
  | skipping (traceName : Option String)
  /-- Runs the block twice. -/
  | twice
  deriving DecidableEq

/-- A reporter. -/
inductive ReporterStub where
  | recording
  | panicking
  | tracing
  deriving DecidableEq

/-- A configuration of scripted collaborators. -/
abbrev ScriptConfig := Config TransactionStub InstrumentationStub ReporterStub

/-- A change of such a configuration. -/
abbrev ScriptChange := Config.Change TransactionStub InstrumentationStub ReporterStub

/-! ## Calls from within steps -/

/-- A call of another operation. -/
structure CallSpec where
  operation : String
  arguments : Arguments
  /-- The params that are copied from the caller, where it has them. -/
  passed : List String
  /-- The integer param that is copied from the caller and counted down. -/
  countdown : Option String

/-- Where an outcome comes from. -/
inductive OutcomeSource where
  | given (outcome : Outcome)
  | called (spec : CallSpec)

/-- How a step answers. -/
inductive AnswerSpec where
  | given (answer : Answer)
  /-- The outcome of another operation. -/
  | called (spec : CallSpec)
  /-- A list of outcomes. -/
  | outcomes (sources : List OutcomeSource)
  /-- The param of that name, or `null`. -/
  | param (name : String)
  /-- The param of that name, or nothing. -/
  | optionalParam (name : String)
  /-- The context value of that key, or `null`. -/
  | contextValue (key : String)
  /-- A verdict on the params. -/
  | checkedParams (checks : List Check)

/-! ## Actions -/

/-- A question that decides between two lists of actions. -/
inductive Question where
  | paramEquals (name : String) (value : Json)
  /-- Whether a param is an integer greater than `bound`. -/
  | paramGreater (name : String) (bound : Int)
  | contextHolds (key : String)
  | failed
  | finished

mutual

/-- Something that a step does. -/
inductive Action where
  | edit (edit : Outcome.Edit)
  | finish
  /-- Puts out a context value, or `null`. -/
  | outputContext (key : String)
  /-- Puts out the output record of a step, or `null`. -/
  | outputRecord (step : String)
  /-- Puts out a param, or `null`. -/
  | outputParam (name : String)
  /-- Puts out a dependency that has to be there. -/
  | outputDependency (name : String) (type : DataType)
  /-- Asks something of the context and notes the reply. -/
  | askContext (request : ContextRequest)
  | note (value : Json)
  | noteState
  | fail (fault : Fault)
  | panic (panic : Panic)
  /-- Calls an operation and notes its outcome. -/
  | call (spec : CallSpec)
  /-- Calls an operation and notes its outcome or its error. -/
  | tryCall (spec : CallSpec)
  /-- Calls an operation and puts out its output. -/
  | outputCall (spec : CallSpec)
  /-- Calls an operation and takes over its failures. -/
  | mergeCall (spec : CallSpec)
  | declare (operation : String) (script : List (Declaration Step))
  | configure (operation : String) (changes : List ScriptChange)
  | configureGlobal (changes : List ScriptChange)
  | choose (question : Question) (yes no : List Action)

/-- The handler of a step. -/
inductive Step where
  /-- Carries out actions and answers. -/
  | script (actions : List Action) (answer : AnswerSpec)
  /-- Reads its actions and its answer from the param of that name. -/
  | fromParam (name : String)

end

end OperationPipeline.Script

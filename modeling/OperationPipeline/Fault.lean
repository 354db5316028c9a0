import OperationPipeline.EngineError

set_option autoImplicit false

/-! # Faults

A fault is a cause with contexts around it, each a text that says what was being done. Its message
is the outermost text; its chain lists all of them down to the cause. An engine error is recognised
below any contexts, and whoever takes it out leaves the contexts behind. Contexts are texts and
nothing else: an engine error can be what a fault is about, but it cannot be put around a fault as a
context, where it would be recognised before the cause.

Inside the block of a transaction a further cause is possible: the signal that the block has to be
rolled back. `Fault`, the type of what handlers raise and reporters receive, has no room for it, so
the signal cannot leave the transaction it belongs to. -/

namespace OperationPipeline

/-- A cause of type `κ` with contexts around it, the outermost one first. A context is a text; it
    carries no cause of its own. -/
structure Chain (κ : Type) where
  cause : κ
  contexts : List String
  deriving DecidableEq

namespace Chain

variable {κ μ : Type}

/-- A cause without contexts. -/
def bare (cause : κ) : Chain κ := ⟨cause, []⟩

/-- Adds a context on the outside. -/
def wrap (chain : Chain κ) (context : String) : Chain κ :=
  { chain with contexts := context :: chain.contexts }

/-- The same contexts around another cause. -/
def map (f : κ → μ) (chain : Chain κ) : Chain μ :=
  ⟨f chain.cause, chain.contexts⟩

/-- All texts from the outermost context down to the cause, whose text is given by `text`. -/
def texts (text : κ → String) (chain : Chain κ) : List String :=
  chain.contexts ++ [text chain.cause]

/-- The outermost text. -/
def outermost (text : κ → String) (chain : Chain κ) : String :=
  match chain.contexts with
  | [] => text chain.cause
  | context :: _ => context

theorem texts_wrap (text : κ → String) (chain : Chain κ) (context : String) :
    (chain.wrap context).texts text = context :: chain.texts text := rfl

theorem outermost_eq_head (text : κ → String) (chain : Chain κ) :
    some (chain.outermost text) = (chain.texts text).head? := by
  cases chain with
  | mk cause contexts => cases contexts <;> rfl

end Chain

/-! ## Faults of handlers -/

/-- What lies at the bottom of a fault. -/
inductive Cause where
  /-- A plain text. -/
  | text (message : String)
  /-- An error of the engine, as a nested call returns it. -/
  | engine (error : EngineError)
  deriving DecidableEq

/-- The text of a cause. -/
def Cause.message : Cause → String
  | .text message => message
  | .engine error => error.message

/-- A runtime fault. -/
abbrev Fault := Chain Cause

namespace Fault

/-- A fault with the given text. -/
def ofText (message : String) : Fault := .bare (.text message)

/-- A fault that carries an engine error. -/
def ofError (error : EngineError) : Fault := .bare (.engine error)

/-- The message of a fault: its outermost text. -/
def message (fault : Fault) : String :=
  fault.outermost Cause.message

/-- The messages of a fault and of all that lies below it. -/
def chain (fault : Fault) : List String :=
  fault.texts Cause.message

/-- The whole chain in one text. -/
def fullText (fault : Fault) : String :=
  String.intercalate ": " fault.chain

/-- The engine error at the bottom, whatever the contexts above it. There is no other place for one,
    since contexts are texts. -/
def error? (fault : Fault) : Option EngineError :=
  match fault.cause with
  | .engine error => some error
  | .text _ => none

/-- The authoring error at the bottom, if there is one. -/
def authoring? (fault : Fault) : Option EngineError :=
  match fault.error? with
  | some error => if error.isAuthoring then some error else none
  | none => none

/-- What remains of a fault once its cause has been looked at: an engine error stands alone, any
    other fault keeps its contexts. -/
def recovered (fault : Fault) : Fault :=
  match fault.error? with
  | some error => ofError error
  | none => fault

end Fault

/-! ## Faults of a transaction's block -/

/-- What lies at the bottom of the error of a transaction's block. -/
inductive AbortCause where
  /-- The walk went through but left a failed outcome: the backend has to roll back. -/
  | rolledBack
  /-- Anything else. -/
  | fault (cause : Cause)
  deriving DecidableEq

/-- The text of such a cause. -/
def AbortCause.message : AbortCause → String
  | .rolledBack => "transaction rolled back"
  | .fault cause => cause.message

/-- An error of a transaction, as its block and its backend raise it. -/
abbrev Abort := Chain AbortCause

namespace Abort

/-- The signal to roll back. -/
def rollback : Abort := .bare .rolledBack

/-- A fault as an error of a transaction. -/
def ofFault (fault : Fault) : Abort := fault.map .fault

/-- The message of an abort: its outermost text. -/
def message (abort : Abort) : String :=
  abort.outermost AbortCause.message

/-- The fault inside, unless it is the signal to roll back. -/
def fault? (abort : Abort) : Option Fault :=
  match abort.cause with
  | .rolledBack => none
  | .fault cause => some ⟨cause, abort.contexts⟩

@[simp] theorem fault?_ofFault (fault : Fault) : (ofFault fault).fault? = some fault := rfl

@[simp] theorem fault?_wrap (abort : Abort) (context : String) :
    fault? (Chain.wrap abort context) = abort.fault?.map (·.wrap context) := by
  cases abort with
  | mk cause contexts => cases cause <;> rfl

end Abort

end OperationPipeline

import OperationPipeline.Registry
import OperationPipeline.Script.Syntax

set_option autoImplicit false

/-! # The stage of scripted operations

Scripted operations are registered under texts, and the world outside their registry is a journal,
in which handlers and collaborators note what they do. -/

namespace OperationPipeline.Script

/-- Something that was noted. -/
inductive Entry where
  | value (value : Json)
  | reply (reply : ContextReply)
  | state (call : Call)
  | outcome (outcome : Outcome)
  | error (error : EngineError)
  /-- A transaction began with the given method and options. -/
  | began (method : String) (options : Option Json)
  | committed
  | rolledBack (text : String)
  /-- A transaction backend that only runs its block was entered. -/
  | passthroughEntered (method : String)
  | instrumenting (method traceName : String) (options : Entries Json)
  | instrumented (traceName : String)
  | spanOpened (method traceName : String)
  | spanEntered
  | spanExited
  /-- The block inside a span was entered, with the given number of options. -/
  | blockEntered (options : Nat)
  | reported (message fullText : String)
  /-- A fault was reported as an event. -/
  | faultTraced (fullText : String)

/-- What was noted, the latest first. -/
structure Journal where
  latest : List Entry := []

/-- The world of scripted handlers. -/
abbrev Stage := Host String Step TransactionStub InstrumentationStub ReporterStub Journal

/-- The engine of scripted operations. -/
abbrev ScriptEngine := Engine String Step TransactionStub InstrumentationStub ReporterStub Journal

/-- The type of a scripted operation. -/
abbrev ScriptType := OperationType Step TransactionStub InstrumentationStub ReporterStub

namespace Stage

/-- Notes an entry. -/
def note (entry : Entry) (stage : Stage) : Stage :=
  { stage with outside := ⟨entry :: stage.outside.latest⟩ }

/-- Everything that was noted, in order. -/
def entries (stage : Stage) : List Entry :=
  stage.outside.latest.reverse

/-- The stage with an empty journal. -/
def cleared (stage : Stage) : Stage :=
  { stage with outside := {} }

@[simp] theorem entries_note (entry : Entry) (stage : Stage) :
    entries (note entry stage) = entries stage ++ [entry] := by
  simp [entries, note]

end Stage

/-! ## Collaborators -/

/-- The answer of a transaction that ended with the given answer of its block. -/
def Closing.close : Closing → Except Abort Unit → Except Abort Unit
  | .unchanged, answer => answer
  | .failingCommit, .ok () => .error (Abort.ofFault (Fault.ofText "commit failed"))
  | .failingCommit, .error abort => .error abort
  | .swallowing, _ => .ok ()
  | .wrapping, .ok () => .ok ()
  | .wrapping, .error abort => .error (Chain.wrap abort "while rolling back")
  | .replacing, .ok () => .ok ()
  | .replacing, .error _ => .error (Abort.ofFault (Fault.ofText "rollback failed"))

/-- Notes how the block of a transaction ended. -/
def noteEnd (answer : Except Abort Unit) (stage : Stage) : Stage :=
  match answer with
  | .ok () => stage.note .committed
  | .error abort => stage.note (.rolledBack abort.message)

/-- Plays a transaction backend. -/
def TransactionStub.play : TransactionStub → TransactionBackend Stage
  | .passthrough, method, _, stage =>
    .once (stage.note (.passthroughEntered method)) fun answer stage => (answer, stage)
  | .failing fault, method, options, stage =>
    .finish (.error (Abort.ofFault fault)) (stage.note (.began method options))
  | .idle, method, options, stage => .finish (.ok ()) (stage.note (.began method options))
  | .once closing, method, options, stage =>
    .once (stage.note (.began method options)) fun answer stage =>
      (closing.close answer, noteEnd answer stage)
  | .twice, method, options, stage =>
    .run (stage.note (.began method options)) fun answer stage =>
      match answer with
      | .ok () => .once stage fun answer stage => (answer, noteEnd answer stage)
      | .error abort => .finish (.error abort) (noteEnd (.error abort) stage)

/-- Plays an instrumentation backend. -/
def InstrumentationStub.play : InstrumentationStub → Instrumentation Stage
  | .tracing, method, traceName, options, stage =>
    let stage := stage.note (.spanOpened method traceName)
    let stage := stage.note .spanEntered
    .once (stage.note (.blockEntered options.length)) fun _ stage => ((), stage.note .spanExited)
  | .recording, method, traceName, options, stage =>
    .once (stage.note (.instrumenting method traceName options)) fun _ stage =>
      ((), stage.note (.instrumented traceName))
  | .skipping skipped, method, traceName, options, stage =>
    let stage := stage.note (.instrumenting method traceName options)
    if skipped.all (· = traceName) then .finish () (stage.note (.instrumented traceName))
    else .once stage fun _ stage => ((), stage.note (.instrumented traceName))
  | .twice, method, traceName, options, stage =>
    .run (stage.note (.instrumenting method traceName options)) fun _ stage =>
      .once stage fun _ stage => ((), stage.note (.instrumented traceName))

/-- Plays a reporter. -/
def ReporterStub.play : ReporterStub → Reporter Stage
  | .recording, fault, stage =>
    (.returned, stage.note (.reported fault.message fault.fullText))
  | .panicking, fault, stage =>
    (.panicked, stage.note (.reported fault.message fault.fullText))
  | .tracing, fault, stage => (.returned, stage.note (.faultTraced fault.fullText))

end OperationPipeline.Script

import OperationPipeline.Answer
import OperationPipeline.Call
import OperationPipeline.Config

set_option autoImplicit false

/-! # Handlers and collaborators

The code that the engine runs but does not own: the handlers of steps, transaction backends,
instrumentation backends and reporters. All of them act on a world of some type `ω`, of which the
engine knows nothing; handlers act on the state of their call as well.

A backend wraps a block that the engine hands to it. What it does is an `Interaction`: it may run
the block any number of times, looking at the answer each time, and then ends with an answer of its
own. `Interaction.drive` plays an interaction against a block. -/

namespace OperationPipeline

/-- The state of a call together with the world around it. -/
structure State (ω : Type) where
  call : Call
  world : ω

/-! ## Handlers -/

/-- What a panic carries. -/
inductive Panic where
  | text (message : String)
  | other

/-- The text of a panic. -/
def Panic.message : Panic → String
  | .text message => message
  | .other => "non-string panic payload"

/-- How a handler ends. -/
inductive HandlerEnd where
  | answered (answer : Answer)
  | faulted (fault : Fault)
  | panicked (panic : Panic)

/-- The answer of a handler, or its fault; a panic is a fault like any other. -/
def HandlerEnd.result : HandlerEnd → Except Fault Answer
  | .answered answer => .ok answer
  | .faulted fault => .error fault
  | .panicked panic => .error (Fault.ofText ("step panicked: " ++ panic.message))

/-- The code of a step. -/
abbrev Handler (ω : Type) := State ω → HandlerEnd × State ω

/-! ## Interactions -/

/-- What a backend does with a block that answers with `α`, until it ends with an answer in `β`. -/
inductive Interaction (ω α β : Type) where
  /-- Ends with an answer. -/
  | finish (answer : β) (world : ω)
  /-- Runs the block and goes on with its answer. -/
  | run (world : ω) (resume : α → ω → Interaction ω α β)

namespace Interaction

variable {ω α β σ : Type}

/-- Plays an interaction against a block, which keeps a state of its own between its runs. -/
def drive (block : σ → ω → α × σ × ω) : Interaction ω α β → σ → β × σ × ω
  | .finish answer world, state => (answer, state, world)
  | .run world resume, state =>
    match block state world with
    | (answer, state, world) => (resume answer world).drive block state
termination_by structural interaction => interaction

/-- Runs the block once and ends with an answer that depends on the block's. -/
def once (world : ω) (close : α → ω → β × ω) : Interaction ω α β :=
  .run world fun answer world =>
    match close answer world with
    | (answer, world) => .finish answer world

@[simp] theorem drive_finish (block : σ → ω → α × σ × ω) (answer : β) (world : ω) (state : σ) :
    (finish answer world : Interaction ω α β).drive block state = (answer, state, world) := rfl

theorem drive_run (block : σ → ω → α × σ × ω) (world : ω)
    (resume : α → ω → Interaction ω α β) (state : σ) :
    (run world resume).drive block state
      = (resume (block state world).1 (block state world).2.2).drive block
          (block state world).2.1 := rfl

theorem drive_once (block : σ → ω → α × σ × ω) (world : ω) (close : α → ω → β × ω) (state : σ) :
    (once world close).drive block state
      = ((close (block state world).1 (block state world).2.2).1, (block state world).2.1,
          (close (block state world).1 (block state world).2.2).2) := rfl

end Interaction

/-! ## Collaborators -/

/-- A transaction backend: from the configured method and options to what it does with a block that
    either goes through or has to be rolled back. -/
abbrev TransactionBackend (ω : Type) :=
  String → Option Json → ω → Interaction ω (Except Abort Unit) (Except Abort Unit)

/-- An instrumentation backend: from the configured method, the name of the trace and the configured
    options to what it does with a block. -/
abbrev Instrumentation (ω : Type) :=
  String → String → Entries Json → ω → Interaction ω Unit Unit

/-- How a report ends. -/
inductive ReportEnd where
  | returned
  | panicked

/-- A reporter of faults. -/
abbrev Reporter (ω : Type) := Fault → ω → ReportEnd × ω

/-- How long a benchmark took: wall-clock seconds, and seconds of processor time where they are
    known. -/
structure Timing where
  real : Binary64
  total : Option Binary64

/-- The information that a benchmark leaves. -/
def Timing.toJson (timing : Timing) : Json :=
  .object
    [ ("real", .number (.float timing.real)),
      ("total", match timing.total with
        | some total => .number (.float total)
        | none => .null) ]

/-- Measures the time between two worlds. -/
abbrev Clock (ω : Type) := ω → ω → Timing

end OperationPipeline

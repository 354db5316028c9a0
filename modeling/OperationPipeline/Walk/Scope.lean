import OperationPipeline.Instruction.Basic

set_option autoImplicit false

/-! # Scopes

Two things pass down the tree of instructions while it is walked: when a list of instructions stops
early, and what kind its plain steps take. Both follow from the kind of the block that holds the
list; only a `step` block takes the kind of its plain steps from the scope around it. -/

namespace OperationPipeline

/-- When the walk of a list of instructions stops before its end. -/
inductive StopRule where
  /-- Once the call is finished or its outcome is a failure. -/
  | finishedOrFailed
  /-- Only once the call is finished. -/
  | finishedOnly
  deriving DecidableEq, Inhabited

namespace StopRule

/-- Whether a list stops in the given state of the call. -/
def stops (rule : StopRule) (finished failed : Bool) : Bool :=
  match rule with
  | .finishedOrFailed => finished || failed
  | .finishedOnly => finished

@[simp] theorem stops_finished (rule : StopRule) (failed : Bool) :
    rule.stops true failed = true := by
  cases rule <;> rfl

@[simp] theorem stops_running (rule : StopRule) : rule.stops false false = false := by
  cases rule <;> rfl

end StopRule

/-- What a list of instructions is walked under. -/
structure Scope where
  rule : StopRule
  /-- The kind that plain steps take. -/
  leaf : Kind
  deriving DecidableEq

namespace Scope

/-- The scope of a whole operation, and of transactions and benchmarks. -/
def root : Scope := ⟨.finishedOrFailed, .step⟩

/-- The kind of the plain steps inside a node of the given kind, where plain steps around it are of
    the kind `inherited`. For a node that is a single step, this is how the step itself is run. -/
def leafKind (kind inherited : Kind) : Kind :=
  match kind with
  | .step => inherited
  | .transaction | .benchmark | .success => .step
  | .validate | .operation | .operations | .finishIf => kind

/-- When the body of a block of the given kind stops. -/
def stopRule (kind : Kind) : StopRule :=
  match kind with
  | .validate | .success => .finishedOnly
  | _ => .finishedOrFailed

/-- The scope inside a block. -/
def inside (kind inherited : Kind) : Scope :=
  ⟨stopRule kind, leafKind kind inherited⟩

theorem inside_transaction (inherited : Kind) : inside .transaction inherited = root := rfl

theorem inside_benchmark (inherited : Kind) : inside .benchmark inherited = root := rfl

end Scope

end OperationPipeline

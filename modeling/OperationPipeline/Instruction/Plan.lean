import OperationPipeline.Instruction.Basic

set_option autoImplicit false

/-! # Plans

A plan is the list of instructions of an operation while it is being declared. For each kind there
is a function that appends a single step, and one that appends a block, which is a plan of its own
that starts empty. A `Declaration` is one such call as data. -/

namespace OperationPipeline

/-- Instructions in the order of their declaration. -/
structure Plan (η : Type) where
  instructions : List (Instruction η) := []

namespace Plan

variable {η : Type}

/-- A plan without instructions. -/
def empty : Plan η := {}

/-- The number of instructions, not counting those inside blocks. -/
def size (plan : Plan η) : Nat := plan.instructions.length

/-- Whether nothing was declared yet. -/
def isEmpty (plan : Plan η) : Bool := plan.instructions.isEmpty

/-- Appends a single step. -/
def pushLeaf (plan : Plan η) (kind : Kind) (name : String) (handler : η) : Plan η :=
  ⟨plan.instructions ++ [.leaf kind name handler]⟩

/-- Appends a block with what `declare` declares in an empty plan. -/
def pushBlock (plan : Plan η) (kind : Kind) (declare : Plan η → Plan η) : Plan η :=
  ⟨plan.instructions ++ [.block kind (declare empty).instructions]⟩

/-! ## Steps and blocks by kind -/

/-- A plain step; its answer is ignored. -/
def step (plan : Plan η) (name : String) (handler : η) : Plan η :=
  plan.pushLeaf .step name handler

/-- A transparent group of instructions. -/
def stepBlock (plan : Plan η) (declare : Plan η → Plan η) : Plan η :=
  plan.pushBlock .step declare

/-- A step that answers with an outcome or a verdict. -/
def validate (plan : Plan η) (name : String) (handler : η) : Plan η :=
  plan.pushLeaf .validate name handler

/-- A group in which plain steps are validations; all of them run even if earlier ones fail. -/
def validateBlock (plan : Plan η) (declare : Plan η → Plan η) : Plan η :=
  plan.pushBlock .validate declare

/-- A step that runs inside a transaction. -/
def transaction (plan : Plan η) (name : String) (handler : η) : Plan η :=
  plan.pushLeaf .transaction name handler

/-- A group that runs inside a transaction, which is rolled back if it leaves a failed outcome. -/
def transactionBlock (plan : Plan η) (declare : Plan η → Plan η) : Plan η :=
  plan.pushBlock .transaction declare

/-- A step whose duration is recorded. -/
def benchmark (plan : Plan η) (name : String) (handler : η) : Plan η :=
  plan.pushLeaf .benchmark name handler

/-- A group whose duration is recorded. -/
def benchmarkBlock (plan : Plan η) (declare : Plan η → Plan η) : Plan η :=
  plan.pushBlock .benchmark declare

/-- A step that answers with the outcome of another operation. -/
def operation (plan : Plan η) (name : String) (handler : η) : Plan η :=
  plan.pushLeaf .operation name handler

/-- A group in which plain steps answer with the outcome of another operation. -/
def operationBlock (plan : Plan η) (declare : Plan η → Plan η) : Plan η :=
  plan.pushBlock .operation declare

/-- A step that answers with the outcomes of several operations. -/
def operations (plan : Plan η) (name : String) (handler : η) : Plan η :=
  plan.pushLeaf .operations name handler

/-- A group in which plain steps answer with the outcomes of several operations. -/
def operationsBlock (plan : Plan η) (declare : Plan η → Plan η) : Plan η :=
  plan.pushBlock .operations declare

/-- A step in a group of its own. -/
def success (plan : Plan η) (name : String) (handler : η) : Plan η :=
  plan.pushLeaf .success name handler

/-- A group whose members run even if earlier ones fail. -/
def successBlock (plan : Plan η) (declare : Plan η → Plan η) : Plan η :=
  plan.pushBlock .success declare

/-- A step that finishes the call if its answer is truthy. -/
def finishIf (plan : Plan η) (name : String) (handler : η) : Plan η :=
  plan.pushLeaf .finishIf name handler

/-- A group in which every plain step finishes the call if its answer is truthy. -/
def finishIfBlock (plan : Plan η) (declare : Plan η → Plan η) : Plan η :=
  plan.pushBlock .finishIf declare

end Plan

/-! ## Declarations as data -/

/-- One call of a declaring function. -/
inductive Declaration (η : Type) where
  | single (kind : Kind) (name : String) (handler : η)
  | group (kind : Kind) (body : List (Declaration η))

namespace Plan

variable {η : Type}

/-- Declares a single step of the given kind. -/
def declareSingle (plan : Plan η) : Kind → String → η → Plan η
  | .step => plan.step
  | .validate => plan.validate
  | .transaction => plan.transaction
  | .benchmark => plan.benchmark
  | .operation => plan.operation
  | .operations => plan.operations
  | .success => plan.success
  | .finishIf => plan.finishIf

/-- Declares a block of the given kind. -/
def declareGroup (plan : Plan η) : Kind → (Plan η → Plan η) → Plan η
  | .step => plan.stepBlock
  | .validate => plan.validateBlock
  | .transaction => plan.transactionBlock
  | .benchmark => plan.benchmarkBlock
  | .operation => plan.operationBlock
  | .operations => plan.operationsBlock
  | .success => plan.successBlock
  | .finishIf => plan.finishIfBlock

mutual

/-- Carries out one declaration. -/
def declare : Declaration η → Plan η → Plan η
  | .single kind name handler, plan => plan.declareSingle kind name handler
  | .group kind body, plan => plan.declareGroup kind fun nested => declareAll body nested
termination_by structural declaration => declaration

/-- Carries out declarations in turn. -/
def declareAll : List (Declaration η) → Plan η → Plan η
  | [], plan => plan
  | declaration :: rest, plan => declareAll rest (declare declaration plan)
termination_by structural declarations => declarations

end

/-- The plan of a script of declarations. -/
def ofDeclarations (declarations : List (Declaration η)) : Plan η :=
  declareAll declarations empty

end Plan

end OperationPipeline

import OperationPipeline.Walk.Leaf

set_option autoImplicit false

/-! # The walk

`Setting.walkAll` carries out a list of instructions in order and stops as the rule of its scope
says, looking at the call after each instruction. `Setting.walk` carries out one instruction: a
single step is run as the kind that its node and its scope give it, a block is walked in a scope of
its own, and a `transaction` or `benchmark` node puts a wrapper around either.

`Setting.perform` is a whole call: it walks the instructions of an operation from a fresh state
inside the instrumentation of the operation. -/

namespace OperationPipeline.Setting

variable {ω : Type}

/-! ## Transactions -/

/-- The name under which faults of transactions are recorded. -/
def transactionStep : String := "transaction"

/-- The answer that a transaction's block gives its backend: an error that the walk raised, the
    signal to roll back if the walk left a failed outcome, or nothing. -/
def blockAnswer (walked : Except EngineError Unit) (outcome : Outcome) : Except Abort Unit :=
  match walked with
  | .error error => .error (Abort.ofFault (Fault.ofError error))
  | .ok () => if outcome.isFailure then .error Abort.rollback else .ok ()

/-- The block that a transaction backend is given. -/
def transactionBlock (body : State ω → Except EngineError Unit × State ω) (call : Call)
    (world : ω) : Except Abort Unit × Call × ω :=
  match body ⟨call, world⟩ with
  | (walked, state) => (blockAnswer walked state.call.outcome, state.call, state.world)

/-- Does some work inside the transaction backend. The signal to roll back ends here; any other
    error of the backend is settled as a fault of the transaction. -/
def runTransaction (setting : Setting ω) (body : State ω → Except EngineError Unit × State ω)
    (state : State ω) : Except EngineError Unit × State ω :=
  match setting.config.transactionBackend with
  | none => (.error (.transactionBackendMissing setting.displayName), state)
  | some backend =>
    let interaction :=
      backend setting.config.transactionMethod setting.config.transactionOptions state.world
    match interaction.drive (transactionBlock body) state.call with
    | (.ok (), call, world) => (.ok (), ⟨call, world⟩)
    | (.error abort, call, world) =>
      match abort.fault? with
      -- what made the block roll back is in the outcome already
      | none => (.ok (), ⟨call, world⟩)
      | some fault => setting.settle transactionStep fault ⟨call, world⟩

/-! ## Benchmarks -/

/-- Does some work and records how long it took under `label`, unless it raised an error. -/
def runBenchmark (setting : Setting ω) (label : String)
    (body : State ω → Except EngineError Unit × State ω) (state : State ω) :
    Except EngineError Unit × State ω :=
  match body state with
  | (.error error, after) => (.error error, after)
  | (.ok (), after) =>
    let timing := setting.clock state.world after.world
    proceedWith (·.mapOutcome (·.addInformation [(label, timing.toJson)])) after

/-- The wrapper that a node of the given kind puts around its work. -/
def around (setting : Setting ω) (kind : Kind) (label : String)
    (body : State ω → Except EngineError Unit × State ω) :
    State ω → Except EngineError Unit × State ω :=
  match kind with
  | .transaction => setting.runTransaction body
  | .benchmark => setting.runBenchmark label body
  | _ => body

/-! ## The tree -/

/-- Whether a list in the given scope stops in the given state. -/
def stopsAt (scope : Scope) (state : State ω) : Bool :=
  scope.rule.stops state.call.finished state.call.outcome.isFailure

mutual

/-- Carries out one instruction where plain steps take the kind `inherited`. -/
def walk (setting : Setting ω) :
    Instruction (Handler ω) → Kind → State ω → Except EngineError Unit × State ω
  | .leaf kind name handler, inherited =>
    setting.around kind name fun state =>
      setting.walkLeaf (Scope.leafKind kind inherited) name handler state
  | .block kind body, inherited =>
    setting.around kind (Instruction.block kind body).label fun state =>
      walkAll setting body (Scope.inside kind inherited) state
termination_by structural instruction => instruction

/-- Carries out instructions in turn until the scope's rule stops the list or an error is raised. -/
def walkAll (setting : Setting ω) :
    List (Instruction (Handler ω)) → Scope → State ω → Except EngineError Unit × State ω
  | [], _, state => (.ok (), state)
  | instruction :: rest, scope, state =>
    match walk setting instruction scope.leaf state with
    | (.error error, state) => (.error error, state)
    | (.ok (), state) =>
      if stopsAt scope state then (.ok (), state) else walkAll setting rest scope state
termination_by structural body => body

end

/-! ## Calls -/

/-- The outcome of a call whose walk ended in the given way; without a walk the call is as it
    was at its start. -/
def concluded : Option (Except EngineError Unit) × State ω → Except EngineError Outcome × ω
  | (some (.error error), state) => (.error error, state.world)
  | (some (.ok ()), state) => (.ok state.call.outcome, state.world)
  | (none, state) => (.ok state.call.outcome, state.world)

/-- A whole call, from the state in which all calls start: nothing is run unless the configuration is
    valid. -/
def perform (setting : Setting ω) (instructions : List (Instruction (Handler ω)))
    (arguments : Arguments) (world : ω) : Except EngineError Outcome × ω :=
  match setting.config.validate with
  | .error error => (.error error, world)
  | .ok () =>
    concluded (setting.instrumented setting.displayName .operation
      (setting.walkAll instructions .root) ⟨Call.start arguments, world⟩)

/-! ## Equations -/

theorem walkAll_nil (setting : Setting ω) (scope : Scope) (state : State ω) :
    setting.walkAll [] scope state = (.ok (), state) := rfl

theorem walkAll_cons (setting : Setting ω) (instruction : Instruction (Handler ω))
    (rest : List (Instruction (Handler ω))) (scope : Scope) (state : State ω) :
    setting.walkAll (instruction :: rest) scope state
      = match setting.walk instruction scope.leaf state with
        | (.error error, state) => (.error error, state)
        | (.ok (), state) =>
          if stopsAt scope state then (.ok (), state) else setting.walkAll rest scope state := rfl

theorem walk_leaf (setting : Setting ω) (kind : Kind) (name : String) (handler : Handler ω)
    (inherited : Kind) :
    setting.walk (.leaf kind name handler) inherited
      = setting.around kind name
          (setting.walkLeaf (Scope.leafKind kind inherited) name handler) := rfl

theorem walk_block (setting : Setting ω) (kind : Kind) (body : List (Instruction (Handler ω)))
    (inherited : Kind) :
    setting.walk (.block kind body) inherited
      = setting.around kind (Instruction.block kind body).label
          (setting.walkAll body (Scope.inside kind inherited)) := rfl

end OperationPipeline.Setting

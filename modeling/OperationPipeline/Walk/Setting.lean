import OperationPipeline.Walk.Collaborator

set_option autoImplicit false

/-! # What a call runs in

A setting holds what stays the same during a call: the configuration with its collaborators, the
names of the operation and the clock. Around it, this module defines how work is instrumented, how
faults are recorded and how a single step is run. -/

namespace OperationPipeline

/-- What stays the same during a call. -/
structure Setting (ω : Type) where
  config : Config (TransactionBackend ω) (Instrumentation ω) (Reporter ω)
  /-- The name that qualifies steps, if the operation has one. -/
  name : Option String
  /-- The name of the operation's type. -/
  typeName : String
  clock : Clock ω

namespace Setting

variable {ω α : Type}

/-- The name of the operation, or of its type if it has none. -/
def displayName (setting : Setting ω) : String :=
  setting.name.getD setting.typeName

/-! ## Instrumentation -/

/-- The backend that wraps work at the given level: none for steps if only whole calls are to be
    traced. -/
def backendAt (setting : Setting ω) (level : TraceLevel) : Option (Instrumentation ω) :=
  if level = .operation ∨ setting.config.traceLevel = level then
    setting.config.instrumentationBackend
  else none

/-- A block that does some work when it is run for the first time, and nothing after that. -/
def firstRun (work : State ω → α × State ω) :
    Option α × Call → ω → Unit × (Option α × Call) × ω
  | (some answer, call), world => ((), (some answer, call), world)
  | (none, call), world =>
    match work ⟨call, world⟩ with
    | (answer, state) => ((), (some answer, state.call), state.world)

/-- Does some work inside the instrumentation backend, if there is one at this level. There is no
    answer if the backend never ran its block. -/
def instrumented (setting : Setting ω) (traceName : String) (level : TraceLevel)
    (work : State ω → α × State ω) (state : State ω) : Option α × State ω :=
  match setting.backendAt level with
  | none =>
    match work state with
    | (answer, state) => (some answer, state)
  | some backend =>
    let config := setting.config
    let interaction :=
      backend config.instrumentationMethod traceName config.instrumentationOptions state.world
    match interaction.drive (firstRun work) (none, state.call) with
    | ((), (answer, call), world) => (answer, ⟨call, world⟩)

/-! ## Faults -/

/-- Hands a fault to the reporter, if there is one. However the report ends, the call goes on. -/
def report (setting : Setting ω) (fault : Fault) (world : ω) : ω :=
  match setting.config.reporter with
  | none => world
  | some reporter => (reporter fault world).2

/-- Reports a fault and records its message under the qualified name of the step. -/
def recordFault (setting : Setting ω) (step : String) (fault : Fault) (state : State ω) :
    State ω :=
  { call := state.call.mapOutcome (·.addException step fault.message setting.name)
    world := setting.report fault state.world }

/-- Raises the authoring error inside a fault, or records the fault. -/
def settle (setting : Setting ω) (step : String) (fault : Fault) (state : State ω) :
    Except EngineError Unit × State ω :=
  match fault.authoring? with
  | some error => (.error error, state)
  | none => (.ok (), setting.recordFault step fault.recovered state)

/-! ## Steps -/

/-- Appends a plain entry to the trace, if steps are traced. -/
def traced (setting : Setting ω) (step : String) (state : State ω) : State ω :=
  if setting.config.tracesSteps then
    { state with call := state.call.mapOutcome (·.addTrace (.step step)) }
  else state

/-- Runs the handler of a step. There is no answer if the handler faulted, which is then recorded,
    or if the instrumentation skipped the step. -/
def callStep (setting : Setting ω) (step : String) (handler : Handler ω) (state : State ω) :
    Except EngineError (Option Answer) × State ω :=
  -- the trace entry belongs to the instrumented work, so a skipped step leaves none
  match setting.instrumented ("#" ++ step) .step (fun state => handler (setting.traced step state))
      state with
  | (none, state) => (.ok none, state)
  | (some ended, state) =>
    match ended.result with
    | .ok answer => (.ok (some answer), state)
    | .error fault =>
      match setting.settle step fault state with
      | (.ok (), state) => (.ok none, state)
      | (.error error, state) => (.error error, state)

/-- Goes on with the answer of a step, if there is one. -/
def withAnswer (setting : Setting ω) (step : String) (handler : Handler ω)
    (proceed : Answer → State ω → Except EngineError Unit × State ω) (state : State ω) :
    Except EngineError Unit × State ω :=
  match setting.callStep step handler state with
  | (.error error, state) => (.error error, state)
  | (.ok none, state) => (.ok (), state)
  | (.ok (some answer), state) => proceed answer state

/-! ## Traces of nested calls -/

/-- The trace with a nested entry in place of the plain one that the step left at its end. -/
def nestedTrace (step : String) (entry : TraceEntry) (trace : List TraceEntry) :
    List TraceEntry :=
  (if trace.getLast? = some (.step step) then trace.dropLast else trace) ++ [entry]

/-- Replaces the plain entry of a step by a nested one, if steps are traced. -/
def nest (setting : Setting ω) (step : String) (entry : TraceEntry) (outcome : Outcome) :
    Outcome :=
  if setting.config.tracesSteps then
    { outcome with trace := nestedTrace step entry outcome.trace }
  else outcome

theorem settle_authoring (setting : Setting ω) (step : String) (fault : Fault) (state : State ω)
    {error : EngineError} (h : fault.authoring? = some error) :
    setting.settle step fault state = (.error error, state) := by
  simp [settle, h]

theorem settle_recorded (setting : Setting ω) (step : String) (fault : Fault) (state : State ω)
    (h : fault.authoring? = none) :
    setting.settle step fault state
      = (.ok (), setting.recordFault step fault.recovered state) := by
  simp [settle, h]

end Setting

end OperationPipeline

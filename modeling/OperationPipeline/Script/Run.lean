import OperationPipeline.Script.Stage

set_option autoImplicit false

/-! # Running scripted operations

The handler of a scripted step carries out its actions in order; the first that fails ends it. Since
actions call operations whose handlers are scripted as well, `engine` is built level by level: the
handlers of each level make their calls through the level below, and at the bottom no handler can be
run. -/

namespace OperationPipeline.Script

/-- How a step is ended by one of its actions. -/
inductive Halt where
  | fault (fault : Fault)
  | panic (panic : Panic)

/-- A handler that ends in this way. -/
def Halt.toEnd : Halt → HandlerEnd
  | .fault f => .faulted f
  | .panic p => .panicked p

/-! ## Calls -/

/-- The arguments of a call that is made by a step of `caller`. -/
def CallSpec.argumentsFrom (spec : CallSpec) (caller : Call) : Arguments :=
  let params := caller.arguments.params
  let passed := spec.passed.foldl (fun (acc : Arguments) name =>
    match params.at? name with
    | some value => acc.param name value
    | none => acc) spec.arguments
  match spec.countdown with
  | some name => passed.param name (.ofInt (((params.at? name).bind Json.signed?).getD 0 - 1))
  | none => passed

/-- Calls an operation from within a step; an error of the engine is a fault of the step. -/
def CallSpec.run (engine : ScriptEngine) (spec : CallSpec) (state : State Stage) :
    Except Fault Outcome × State Stage :=
  match engine.call spec.operation (spec.argumentsFrom state.call) state.world with
  | (answer, world) => (answer.mapError Fault.ofError, { state with world })

/-! ## Questions -/

/-- The answer to a question. -/
def Question.answer (call : Call) : Question → Bool
  | .paramEquals name value => (call.arguments.params.at? name).any (·.same value)
  | .paramGreater name bound =>
    ((call.arguments.params.at? name).bind Json.signed?).any (bound < ·)
  | .contextHolds key => call.context.holds key
  | .failed => call.outcome.isFailure
  | .finished => call.finished

/-! ## Actions -/

/-- Changes the call and goes on. -/
def onCall (f : Call → Call) (state : State Stage) : Except Halt Unit × State Stage :=
  (.ok (), { state with call := f state.call })

/-- Notes something and goes on. -/
def noting (entry : Entry) (state : State Stage) : Except Halt Unit × State Stage :=
  (.ok (), { state with world := state.world.note entry })

/-- Puts out a value. -/
def putOut (value : Json) : State Stage → Except Halt Unit × State Stage :=
  onCall (·.mapOutcome (·.setOutput value))

/-- Changes the stage; an error of the engine is a fault of the step. -/
def onStage (f : Stage → Except EngineError Unit × Stage) (state : State Stage) :
    Except Halt Unit × State Stage :=
  match f state.world with
  | (answer, world) => (answer.mapError fun error => .fault (Fault.ofError error),
      { state with world })

/-- Calls an operation and goes on with its outcome. -/
def withOutcome (engine : ScriptEngine) (spec : CallSpec)
    (proceed : Outcome → State Stage → Except Halt Unit × State Stage) (state : State Stage) :
    Except Halt Unit × State Stage :=
  match spec.run engine state with
  | (.ok outcome, state) => proceed outcome state
  | (.error fault, state) => (.error (.fault fault), state)

mutual

/-- Carries out one action. -/
def runAction (engine : ScriptEngine) : Action → State Stage → Except Halt Unit × State Stage
  | .edit edit, state => onCall (·.mapOutcome (·.apply edit)) state
  | .finish, state => onCall Call.finish state
  | .outputContext key, state => putOut ((state.call.context.get? key).getD .null) state
  | .outputRecord step, state => putOut ((state.call.context.outputOf step).getD .null) state
  | .outputParam name, state => putOut ((state.call.arguments.params.at? name).getD .null) state
  | .outputDependency name type, state =>
    match state.call.arguments.dependencies.require name type with
    | .ok value => putOut value state
    | .error fault => (.error (.fault fault), state)
  | .askContext request, state =>
    match request.reply state.call.context with
    | (.ok reply, context) =>
      noting (.reply reply) { state with call := { state.call with context } }
    | (.error fault, context) =>
      (.error (.fault fault), { state with call := { state.call with context } })
  | .note value, state => noting (.value value) state
  | .noteState, state => noting (.state state.call) state
  | .fail fault, state => (.error (.fault fault), state)
  | .panic panic, state => (.error (.panic panic), state)
  | .call spec, state => withOutcome engine spec (fun outcome => noting (.outcome outcome)) state
  | .tryCall spec, state =>
    match engine.call spec.operation (spec.argumentsFrom state.call) state.world with
    | (.ok outcome, world) => noting (.outcome outcome) { state with world }
    | (.error error, world) => noting (.error error) { state with world }
  | .outputCall spec, state =>
    withOutcome engine spec (fun outcome state =>
      match outcome.checkedOutput with
      | .ok value => putOut value state
      | .error error => (.error (.fault (Fault.ofError error)), state)) state
  | .mergeCall spec, state =>
    withOutcome engine spec (fun outcome => onCall (·.mapOutcome (·.mergeFailures outcome))) state
  | .declare operation script, state =>
    onStage (engine.declare operation (Plan.declareAll script)) state
  | .configure operation changes, state =>
    onStage (engine.configure operation (Config.applyAll changes)) state
  | .configureGlobal changes, state =>
    onStage (Engine.configureGlobal (Config.applyAll changes)) state
  | .choose question yes no, state =>
    if question.answer state.call then runActions engine yes state
    else runActions engine no state
termination_by structural action => action

/-- Carries out actions in turn until one fails. -/
def runActions (engine : ScriptEngine) :
    List Action → State Stage → Except Halt Unit × State Stage
  | [], state => (.ok (), state)
  | action :: rest, state =>
    match runAction engine action state with
    | (.ok (), state) => runActions engine rest state
    | (.error halt, state) => (.error halt, state)
termination_by structural actions => actions

end

/-! ## Answers -/

/-- Collects outcomes in turn, until a call fails. -/
def OutcomeSource.collect (engine : ScriptEngine) :
    List OutcomeSource → State Stage → Except Fault (List Outcome) × State Stage
  | [], state => (.ok [], state)
  | .given outcome :: rest, state =>
    match collect engine rest state with
    | (answer, state) => (answer.map (outcome :: ·), state)
  | .called spec :: rest, state =>
    match spec.run engine state with
    | (.error fault, state) => (.error fault, state)
    | (.ok outcome, state) =>
      match collect engine rest state with
      | (answer, state) => (answer.map (outcome :: ·), state)

/-- The answer of a step. -/
def AnswerSpec.answer (engine : ScriptEngine) (spec : AnswerSpec) (state : State Stage) :
    Except Fault Answer × State Stage :=
  let params := state.call.arguments.params
  match spec with
  | .given answer => (.ok answer, state)
  | .called spec =>
    match spec.run engine state with
    | (answer, state) => (answer.map .outcome, state)
  | .outcomes sources =>
    match OutcomeSource.collect engine sources state with
    | (answer, state) => (answer.map .outcomes, state)
  | .param name => (.ok (.value ((params.at? name).getD .null)), state)
  | .optionalParam name =>
    (.ok (match params.at? name with
      | some value => .value value
      | none => .nothing), state)
  | .contextValue key => (.ok (.value ((state.call.context.get? key).getD .null)), state)
  | .checkedParams checks => (.ok (.verdict (validated params [] checks).verdict), state)

/-! ## Steps -/

/-- Carries out actions and answers. -/
def runScript (engine : ScriptEngine) (actions : List Action) (answer : AnswerSpec)
    (state : State Stage) : HandlerEnd × State Stage :=
  match runActions engine actions state with
  | (.error halt, state) => (halt.toEnd, state)
  | (.ok (), state) =>
    match answer.answer engine state with
    | (.ok answer, state) => (.answered answer, state)
    | (.error fault, state) => (.faulted fault, state)

/-- Runs a step. The script of a step that is kept in a param is read by `read`. -/
def Step.run (read : Json → List Action × AnswerSpec) (engine : ScriptEngine) (step : Step) :
    Handler Stage :=
  fun state =>
    match step with
    | .script actions answer => runScript engine actions answer state
    | .fromParam name =>
      match read ((state.call.arguments.params.at? name).getD .null) with
      | (actions, answer) => runScript engine actions answer state

/-! ## The engine -/

/-- Scripted operations take no measurable time. -/
def stillClock : Clock Stage :=
  fun _ _ => ⟨⟨0⟩, some ⟨0⟩⟩

/-- The engine whose handlers can nest calls at most `depth` deep. -/
def engineAt (read : Json → List Action × AnswerSpec) (catalogue : String → ScriptType) :
    Nat → ScriptEngine
  | 0 =>
    { catalogue
      handler := fun _ state => (.faulted (Fault.ofText "calls are nested too deeply"), state)
      transaction := TransactionStub.play
      instrumentation := InstrumentationStub.play
      reporter := ReporterStub.play
      clock := stillClock }
  | depth + 1 =>
    { catalogue
      handler := Step.run read (engineAt read catalogue depth)
      transaction := TransactionStub.play
      instrumentation := InstrumentationStub.play
      reporter := ReporterStub.play
      clock := stillClock }

/-- How deep calls can be nested. -/
def maxDepth : Nat := 100000

/-- The engine of scripted operations. -/
def engine (read : Json → List Action × AnswerSpec) (catalogue : String → ScriptType) :
    ScriptEngine :=
  engineAt read catalogue maxDepth

end OperationPipeline.Script

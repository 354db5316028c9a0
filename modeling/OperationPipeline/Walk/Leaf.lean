import OperationPipeline.Walk.Scope
import OperationPipeline.Walk.Setting

set_option autoImplicit false

/-! # Steps by kind

What is done with the answer of a step. A `validate` step has to answer with an outcome or a
verdict, an `operation` step with an outcome, an `operations` step with a list of outcomes; any
other answer is an authoring error. A `finishIf` step finishes the call if its answer is truthy, and
the answer of a plain step is ignored. -/

namespace OperationPipeline.Setting

variable {ω : Type}

/-- Changes the call and goes on. -/
def proceedWith (f : Call → Call) (state : State ω) : Except EngineError Unit × State ω :=
  (.ok (), { state with call := f state.call })

/-- Folds the answer of a `validate` step into the call: what passed is recorded as the step's
    output, what failed adds its failures. -/
def acceptVerdict (step : String) (answer : Answer) (state : State ω) :
    Except EngineError Unit × State ω :=
  match answer with
  | .outcome outcome =>
    if outcome.isSuccess then proceedWith (·.recordOutput step outcome.output) state
    else proceedWith (·.mapOutcome (·.mergeFailures outcome)) state
  | .verdict verdict =>
    if verdict.success then proceedWith (·.recordOutput step (.object verdict.values)) state
    else proceedWith (·.mapOutcome (·.addErrorLists verdict.errors)) state
  | other => (.error (.unrecognizedVerdict step other.shape), state)

/-- Folds the answer of an `operation` step into the call: its information always, then its trace
    and output if it succeeded, or its failures. -/
def acceptOutcome (setting : Setting ω) (step : String) (answer : Answer) (state : State ω) :
    Except EngineError Unit × State ω :=
  match answer with
  | .outcome outcome =>
    let informed := fun (call : Call) => call.mapOutcome (·.addInformation outcome.information)
    if outcome.isSuccess then
      let nested := fun (call : Call) =>
        call.mapOutcome (setting.nest step (.operation step outcome.trace))
      proceedWith (fun call => (nested (informed call)).recordOutput step outcome.output) state
    else proceedWith (fun call => (informed call).mapOutcome (·.mergeFailures outcome)) state
  | other => (.error (.wrongOperationAnswer step other.shape), state)

/-- Folds the answer of an `operations` step into the call: the failures of all failed outcomes, or
    if there are none the traces and outputs of all of them. -/
def acceptOutcomes (setting : Setting ω) (step : String) (answer : Answer) (state : State ω) :
    Except EngineError Unit × State ω :=
  match answer with
  | .outcomes outcomes =>
    let failed := outcomes.filter Outcome.isFailure
    -- one failed outcome is enough for no trace and no output to be taken over
    if failed.isEmpty then
      proceedWith (fun call =>
        (call.mapOutcome
          (setting.nest step (.operations step (outcomes.map (·.trace))))).recordOutput
            step (.array (outcomes.map (·.output)))) state
    else proceedWith (·.mapOutcome fun outcome => failed.foldl Outcome.mergeFailures outcome) state
  | other => (.error (.wrongOperationsAnswer step other.shape), state)

/-- Finishes the call if the answer is truthy. -/
def acceptCondition (answer : Answer) (state : State ω) : Except EngineError Unit × State ω :=
  if answer.truthy then proceedWith Call.finish state else (.ok (), state)

/-- What is done with the answer of a step that is run as the given kind. -/
def accept (setting : Setting ω) (kind : Kind) (step : String) :
    Answer → State ω → Except EngineError Unit × State ω :=
  match kind with
  | .validate => acceptVerdict step
  | .operation => setting.acceptOutcome step
  | .operations => setting.acceptOutcomes step
  | .finishIf => acceptCondition
  | .step | .transaction | .benchmark | .success => fun _ state => (.ok (), state)

/-- Runs a step as the given kind. -/
def walkLeaf (setting : Setting ω) (kind : Kind) (step : String) (handler : Handler ω)
    (state : State ω) : Except EngineError Unit × State ω :=
  setting.withAnswer step handler (setting.accept kind step) state

end OperationPipeline.Setting

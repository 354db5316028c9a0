import OperationPipeline.Walk.Leaf

set_option autoImplicit false

/-! # What becomes of answers

`Accepts` has one rule for each thing that the engine can do with the answer of a step. It relates
the call before, the result and the call after; what is done with an answer depends on nothing else
(`accepts_accept`). -/

namespace OperationPipeline

/-- The error that a step of the kind raises when it answers in a shape that is not its own. -/
def Kind.rejection? (kind : Kind) (step : String) (answer : Answer) : Option EngineError :=
  match kind, answer with
  | .validate, .outcome _ | .validate, .verdict _ => none
  | .validate, other => some (.unrecognizedVerdict step other.shape)
  | .operation, .outcome _ => none
  | .operation, other => some (.wrongOperationAnswer step other.shape)
  | .operations, .outcomes _ => none
  | .operations, other => some (.wrongOperationsAnswer step other.shape)
  | .step, _ | .transaction, _ | .benchmark, _ | .success, _ | .finishIf, _ => none

theorem Kind.isAuthoring_of_rejection? {kind : Kind} {step : String} {answer : Answer}
    {error : EngineError} (h : kind.rejection? step answer = some error) :
    error.isAuthoring = true := by
  unfold rejection? at h
  split at h <;> cases h <;> rfl

namespace Setting

variable {ω : Type}

/-- What can be done with the answer of a step that is run as the given kind. -/
inductive Accepts (setting : Setting ω) (step : String) (call : Call) :
    Kind → Answer → Except EngineError Unit → Call → Prop where
  /-- The answer has the wrong shape. -/
  | rejected {kind : Kind} {answer : Answer} {error : EngineError}
      (h : kind.rejection? step answer = some error) :
    Accepts setting step call kind answer (.error error) call
  /-- The answers of plain steps are ignored, and what is not truthy finishes nothing. -/
  | ignored {kind : Kind} {answer : Answer} (hvalidate : kind ≠ .validate)
      (hoperation : kind ≠ .operation) (hoperations : kind ≠ .operations)
      (hcondition : kind = .finishIf → answer.truthy = false) :
    Accepts setting step call kind answer (.ok ()) call
  | finished {answer : Answer} (h : answer.truthy = true) :
    Accepts setting step call .finishIf answer (.ok ()) call.finish
  | passed {outcome : Outcome} (h : outcome.isSuccess = true) :
    Accepts setting step call .validate (.outcome outcome) (.ok ())
      (call.recordOutput step outcome.output)
  | failed {outcome : Outcome} (h : outcome.isFailure = true) :
    Accepts setting step call .validate (.outcome outcome) (.ok ())
      (call.mapOutcome (·.mergeFailures outcome))
  | verdictPassed {verdict : Verdict} (h : verdict.success = true) :
    Accepts setting step call .validate (.verdict verdict) (.ok ())
      (call.recordOutput step (.object verdict.values))
  | verdictFailed {verdict : Verdict} (h : verdict.success = false) :
    Accepts setting step call .validate (.verdict verdict) (.ok ())
      (call.mapOutcome (·.addErrorLists verdict.errors))
  | operationPassed {outcome : Outcome} (h : outcome.isSuccess = true) :
    Accepts setting step call .operation (.outcome outcome) (.ok ())
      (((call.mapOutcome (·.addInformation outcome.information)).mapOutcome
        (setting.nest step (.operation step outcome.trace))).recordOutput step outcome.output)
  | operationFailed {outcome : Outcome} (h : outcome.isFailure = true) :
    Accepts setting step call .operation (.outcome outcome) (.ok ())
      ((call.mapOutcome (·.addInformation outcome.information)).mapOutcome
        (·.mergeFailures outcome))
  | operationsPassed {outcomes : List Outcome} (h : outcomes.filter Outcome.isFailure = []) :
    Accepts setting step call .operations (.outcomes outcomes) (.ok ())
      ((call.mapOutcome
        (setting.nest step (.operations step (outcomes.map (·.trace))))).recordOutput step
          (.array (outcomes.map (·.output))))
  | operationsFailed {outcomes : List Outcome} (h : outcomes.filter Outcome.isFailure ≠ []) :
    Accepts setting step call .operations (.outcomes outcomes) (.ok ())
      (call.mapOutcome fun outcome =>
        (outcomes.filter Outcome.isFailure).foldl Outcome.mergeFailures outcome)

variable (setting : Setting ω)

theorem accepts_acceptVerdict (step : String) (answer : Answer) (state : State ω) :
    setting.Accepts step state.call .validate answer (acceptVerdict step answer state).1
      (acceptVerdict step answer state).2.call := by
  cases answer with
  | outcome outcome =>
    rw [acceptVerdict]
    split
    · rename_i hsuccess
      exact .passed hsuccess
    · rename_i hfailed
      rw [Outcome.isSuccess_eq_true_iff, Bool.not_eq_false] at hfailed
      exact .failed hfailed
  | verdict verdict =>
    rw [acceptVerdict]
    split
    · rename_i hsuccess
      exact .verdictPassed hsuccess
    · rename_i hfailed
      exact .verdictFailed (Bool.eq_false_iff.2 hfailed)
  | nothing => exact .rejected rfl
  | flag value => exact .rejected rfl
  | value value => exact .rejected rfl
  | outcomes outcomes => exact .rejected rfl

theorem accepts_acceptOutcome (step : String) (answer : Answer) (state : State ω) :
    setting.Accepts step state.call .operation answer
      (setting.acceptOutcome step answer state).1
      (setting.acceptOutcome step answer state).2.call := by
  cases answer with
  | outcome outcome =>
    rw [acceptOutcome]
    split
    · rename_i hsuccess
      exact .operationPassed hsuccess
    · rename_i hfailed
      rw [Outcome.isSuccess_eq_true_iff, Bool.not_eq_false] at hfailed
      exact .operationFailed hfailed
  | nothing => exact .rejected rfl
  | flag value => exact .rejected rfl
  | value value => exact .rejected rfl
  | outcomes outcomes => exact .rejected rfl
  | verdict verdict => exact .rejected rfl

theorem accepts_acceptOutcomes (step : String) (answer : Answer) (state : State ω) :
    setting.Accepts step state.call .operations answer
      (setting.acceptOutcomes step answer state).1
      (setting.acceptOutcomes step answer state).2.call := by
  cases answer with
  | outcomes outcomes =>
    rw [acceptOutcomes]
    split
    · rename_i hnone
      exact .operationsPassed (List.isEmpty_iff.1 hnone)
    · rename_i hsome
      exact .operationsFailed fun hnone => hsome (List.isEmpty_iff.2 hnone)
  | nothing => exact .rejected rfl
  | flag value => exact .rejected rfl
  | value value => exact .rejected rfl
  | outcome outcome => exact .rejected rfl
  | verdict verdict => exact .rejected rfl

/-- An answer is taken as the rules say. -/
theorem accepts_accept (kind : Kind) (step : String) (answer : Answer) (state : State ω) :
    setting.Accepts step state.call kind answer (setting.accept kind step answer state).1
      (setting.accept kind step answer state).2.call := by
  cases kind with
  | validate => exact setting.accepts_acceptVerdict step answer state
  | operation => exact setting.accepts_acceptOutcome step answer state
  | operations => exact setting.accepts_acceptOutcomes step answer state
  | finishIf =>
    rw [accept, acceptCondition]
    split
    · rename_i htruthy
      exact .finished htruthy
    · rename_i hfalse
      exact .ignored nofun nofun nofun fun _ => Bool.eq_false_iff.2 hfalse
  | _ => exact .ignored nofun nofun nofun nofun

end Setting

end OperationPipeline

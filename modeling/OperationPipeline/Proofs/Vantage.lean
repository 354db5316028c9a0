import OperationPipeline.Proofs.Merging
import OperationPipeline.Proofs.Sight

set_option autoImplicit false

/-! # Vantage points

Two runs are compared from a vantage point: it fixes what is seen of the world, of the information
in outcomes, of their traces and of the talk between the engine and the instrumentation. This is a
sight of the run (`Vantage.sight`), so states look alike and work looks alike as they do for sights.

Operations on outcomes can be carried out on what is seen of them (`Vantage.outcome_mergeFailures`
and its neighbours), and so can taking the answer of a step (`Vantage.shows_accept`). -/

namespace OperationPipeline

/-- A point from which runs are seen. -/
structure Vantage (ω ν : Type) where
  /-- What is seen of the world. -/
  world : ω → ν
  /-- What is seen of a value in the information of an outcome. -/
  value : Json → Json
  /-- Whether traces are seen. -/
  trace : Bool
  /-- Whether it is seen what passes between the engine and the instrumentation. -/
  instrumentation : Bool

/-- A value without the durations of a benchmark. -/
def Json.untimed : Json → Json
  | .object [("real", .number (.float _)), ("total", _)] =>
    .object [("real", .null), ("total", .null)]
  | other => other

/-- Without its durations, one timing is like the other. -/
theorem Timing.untimed_toJson (timing : Timing) :
    timing.toJson.untimed = .object [("real", .null), ("total", .null)] := by
  simp [Timing.toJson, Json.untimed]

namespace Vantage

variable {ω ν : Type} (see : Vantage ω ν)

/-! ## What is seen -/

/-- What is seen of the information in an outcome. -/
def information (entries : Entries Json) : Entries Json :=
  entries.map fun (key, value) => (key, see.value value)

/-- What is seen of an outcome. -/
def outcome (outcome : Outcome) : Outcome :=
  { outcome with
    information := see.information outcome.information
    trace := if see.trace then outcome.trace else [] }

/-- What is seen of a call. -/
def call (call : Call) : Call :=
  call.mapOutcome see.outcome

/-- What is seen of the answer of a handler. -/
def answer : Answer → Answer
  | .outcome outcome => .outcome (see.outcome outcome)
  | .outcomes outcomes => .outcomes (outcomes.map see.outcome)
  | other => other

@[simp] theorem answer_outcome (outcome : Outcome) :
    see.answer (.outcome outcome) = .outcome (see.outcome outcome) := rfl

@[simp] theorem answer_outcomes (outcomes : List Outcome) :
    see.answer (.outcomes outcomes) = .outcomes (outcomes.map see.outcome) := rfl

@[simp] theorem answer_verdict (verdict : Verdict) :
    see.answer (.verdict verdict) = .verdict verdict := rfl

/-- What is seen of an event, if it is seen at all. -/
def event : Event → Option Event
  | .began path call => some (.began path (see.call call))
  | .ended path result call => some (.ended path result (see.call call))
  | .entered path call => some (.entered path (see.call call))
  | .returned path ending call => some (.returned path (ending.mapAnswer see.answer) (see.call call))
  | .traceOpened method traceName options =>
    if see.instrumentation then some (.traceOpened method traceName options) else none
  | .traceRan => if see.instrumentation then some .traceRan else none
  | other => some other

/-- What is seen from a vantage point. -/
def sight : Sight ω ν where
  world := see.world
  call := see.call
  answer := see.answer
  event := see.event
  finished_call _ := rfl
  isFailure_call _ := rfl
  event_began _ _ := rfl
  event_ended _ _ _ := rfl
  event_entered _ _ := rfl
  event_returned _ _ _ := rfl

theorem sight_call : see.sight.call = see.call := rfl

/-- What is seen of what happens. -/
abbrev events (events : List Event) : List Event :=
  see.sight.events events

/-- The same vantage point on a world with a log. -/
def logged : Vantage (Logged ω) (Logged ν) where
  world := see.sight.logged.world
  value := see.value
  trace := see.trace
  instrumentation := see.instrumentation

theorem sight_logged : see.logged.sight = see.sight.logged := rfl

/-! ## Outcomes -/

@[simp] theorem isFailure_outcome (outcome : Outcome) :
    (see.outcome outcome).isFailure = outcome.isFailure := rfl

@[simp] theorem isSuccess_outcome (outcome : Outcome) :
    (see.outcome outcome).isSuccess = outcome.isSuccess := rfl

theorem outcome_addErrors (outcome : Outcome) (messages : List (String × Json)) :
    see.outcome (outcome.addErrors messages) = (see.outcome outcome).addErrors messages := by
  induction messages generalizing outcome with
  | nil => rfl
  | cons first rest ih =>
    have hfirst : see.outcome (outcome.addError first.1 first.2)
        = (see.outcome outcome).addError first.1 first.2 := by
      rw [Outcome.addError, Outcome.addError]
      split <;> rfl
    exact (ih (outcome.addError first.1 first.2)).trans
      (congrArg (fun seen => Outcome.addErrors seen rest) hfirst)

theorem outcome_addErrorLists (outcome : Outcome) (errors : Entries (List Json)) :
    see.outcome (outcome.addErrorLists errors) = (see.outcome outcome).addErrorLists errors :=
  see.outcome_addErrors outcome _

theorem outcome_addExceptions (outcome : Outcome) (exceptions : List (String × List String)) :
    see.outcome (outcome.addExceptions exceptions)
      = (see.outcome outcome).addExceptions exceptions := by
  induction exceptions generalizing outcome with
  | nil => rfl
  | cons first rest ih => exact ih (outcome.addExceptionTexts first.1 first.2)

theorem outcome_mergeFailures (outcome other : Outcome) :
    see.outcome (outcome.mergeFailures other)
      = (see.outcome outcome).mergeFailures (see.outcome other) :=
  (see.outcome_addExceptions _ _).trans
    (congrArg (fun seen => Outcome.addExceptions seen other.exceptions)
      (see.outcome_addErrorLists outcome other.errors))

theorem outcome_foldl_mergeFailures (outcome : Outcome) (others : List Outcome) :
    see.outcome (others.foldl Outcome.mergeFailures outcome)
      = (others.map see.outcome).foldl Outcome.mergeFailures (see.outcome outcome) := by
  induction others generalizing outcome with
  | nil => rfl
  | cons other rest ih =>
    refine (ih (outcome.mergeFailures other)).trans ?_
    rw [outcome_mergeFailures]
    rfl

theorem at?_information (key : String) (entries : Entries Json) :
    (see.information entries).at? key = (entries.at? key).map see.value := by
  induction entries with
  | nil => rfl
  | cons entry rest ih =>
    obtain ⟨k, v⟩ := entry
    have hcons : see.information ((k, v) :: rest) = (k, see.value v) :: see.information rest := rfl
    rw [hcons, Entries.at?, Entries.at?, ih]
    split <;> rfl

theorem information_place (key : String) (value : Json) (entries : Entries Json) :
    see.information (entries.place key value)
      = (see.information entries).place key (see.value value) := by
  induction entries with
  | nil => rfl
  | cons entry rest ih =>
    obtain ⟨k, v⟩ := entry
    have hcons : see.information ((k, v) :: rest) = (k, see.value v) :: see.information rest := rfl
    rw [hcons, Entries.place, Entries.place, ← ih]
    split
    · rfl
    · split <;> rfl

theorem information_placeAll (entries added : Entries Json) :
    see.information (entries.placeAll added)
      = (see.information entries).placeAll (see.information added) := by
  induction added generalizing entries with
  | nil => rfl
  | cons entry rest ih =>
    refine (ih (entries.place entry.1 entry.2)).trans ?_
    rw [information_place]
    rfl

theorem outcome_addInformation (outcome : Outcome) (information : List (String × Json)) :
    see.outcome (outcome.addInformation information)
      = (see.outcome outcome).addInformation (see.information information) := by
  rw [Outcome.addInformation, Outcome.addInformation, Vantage.outcome, information_placeAll]
  rfl

/-! ## Calls -/

theorem call_mapOutcome {f g : Outcome → Outcome} (call : Call)
    (h : see.outcome (f call.outcome) = g (see.outcome call.outcome)) :
    see.call (call.mapOutcome f) = (see.call call).mapOutcome g :=
  congrArg (fun outcome => { call with outcome }) h

theorem call_recordOutput (call : Call) (step : String) (output : Json) :
    see.call (call.recordOutput step output) = (see.call call).recordOutput step output := rfl

theorem call_addErrorLists (call : Call) (errors : Entries (List Json)) :
    see.call (call.mapOutcome (·.addErrorLists errors))
      = (see.call call).mapOutcome (·.addErrorLists errors) :=
  see.call_mapOutcome call (see.outcome_addErrorLists _ _)

theorem call_addException (call : Call) (step text : String) (operation : Option String) :
    see.call (call.mapOutcome (·.addException step text operation))
      = (see.call call).mapOutcome (·.addException step text operation) := rfl

theorem call_mergeFailures (call : Call) (other : Outcome) :
    see.call (call.mapOutcome (·.mergeFailures other))
      = (see.call call).mapOutcome (·.mergeFailures (see.outcome other)) :=
  see.call_mapOutcome call (see.outcome_mergeFailures _ _)

theorem call_addInformation (call : Call) (information : List (String × Json)) :
    see.call (call.mapOutcome (·.addInformation information))
      = (see.call call).mapOutcome (·.addInformation (see.information information)) :=
  see.call_mapOutcome call (see.outcome_addInformation _ _)

/-- Whether what is seen of some work is other work on what is seen of the state. -/
def Shows (work : State ω → Except EngineError Unit × State ω)
    (seen : State ν → Except EngineError Unit × State ν) : Prop :=
  ∀ state, ((work state).1, see.sight.state (work state).2) = seen (see.sight.state state)

/-- Two pieces of work of which the same is seen agree. -/
theorem Shows.agree {ω ν : Type} {see : Vantage ω ν}
    {work work' : State ω → Except EngineError Unit × State ω}
    {seen : State ν → Except EngineError Unit × State ν} (h : see.Shows work seen)
    (h' : see.Shows work' seen) : see.sight.Agree id work work' := by
  intro state state' hstate
  have hboth := (h state).trans ((congrArg seen hstate).trans (h' state').symm)
  exact Prod.mk.inj hboth

theorem shows_proceedWith {f g : Call → Call} (h : ∀ call, see.call (f call) = g (see.call call)) :
    see.Shows (Setting.proceedWith f) (Setting.proceedWith g) :=
  fun state => congrArg (fun call => (Except.ok (), (⟨call, see.world state.world⟩ : State ν)))
    (h state.call)

/-! ## Steps -/

/-- As much of a setting as shows in what a step does to its call. -/
def setting (setting : Setting ω) : Setting ν where
  config := { mode := if see.trace then setting.config.mode else .production }
  name := setting.name
  typeName := setting.typeName
  clock := fun _ _ => ⟨default, none⟩

theorem setting_of_trace (h : see.trace = true) (setting : Setting ω) :
    (see.setting setting).config.tracesSteps = setting.config.tracesSteps := by
  rw [Vantage.setting, h]
  rfl

theorem setting_of_not_trace (h : see.trace = false) (setting : Setting ω) :
    (see.setting setting).config.tracesSteps = false := by
  rw [Vantage.setting, h]
  rfl

theorem outcome_of_not_trace (h : see.trace = false) (outcome : Outcome)
    (trace : List TraceEntry) :
    see.outcome { outcome with trace } = see.outcome outcome := by
  simp [Vantage.outcome, h]

/-- A plain entry is added to what is seen if entries are seen at all. -/
theorem state_traced (setting : Setting ω) (step : String) (state : State ω) :
    see.sight.state (setting.traced step state)
      = (see.setting setting).traced step (see.sight.state state) := by
  rw [Setting.traced, Setting.traced]
  cases htrace : see.trace with
  | false =>
    rw [see.setting_of_not_trace htrace, if_neg Bool.false_ne_true]
    split
    · exact Sight.state_eq_iff.2 ⟨see.call_mapOutcome (g := id) state.call
        (see.outcome_of_not_trace htrace _ _), rfl⟩
    · rfl
  | true =>
    rw [see.setting_of_trace htrace]
    split
    · refine congrArg (fun call => (⟨call, _⟩ : State ν)) (see.call_mapOutcome state.call ?_)
      simp [Vantage.outcome, htrace, Outcome.addTrace]
    · rfl

theorem outcome_nest (setting : Setting ω) (step : String) {entry entry' : TraceEntry}
    (h : see.trace = true → entry = entry') (outcome : Outcome) :
    see.outcome (setting.nest step entry outcome)
      = (see.setting setting).nest step entry' (see.outcome outcome) := by
  rw [Setting.nest, Setting.nest]
  cases htrace : see.trace with
  | false =>
    rw [see.setting_of_not_trace htrace, if_neg Bool.false_ne_true]
    split
    · exact see.outcome_of_not_trace htrace _ _
    · rfl
  | true =>
    rw [see.setting_of_trace htrace, h htrace]
    split
    · simp [Vantage.outcome, htrace]
    · rfl

theorem shows_acceptVerdict (step : String) (answer : Answer) :
    see.Shows (Setting.acceptVerdict step answer)
      (Setting.acceptVerdict step (see.answer answer)) := by
  intro state
  cases answer with
  | outcome outcome =>
    rw [Setting.acceptVerdict, answer_outcome, Setting.acceptVerdict, isSuccess_outcome]
    split
    · rfl
    · exact see.shows_proceedWith (fun call => see.call_mergeFailures call outcome) state
  | verdict verdict =>
    rw [Setting.acceptVerdict, answer_verdict, Setting.acceptVerdict]
    split
    · rfl
    · exact see.shows_proceedWith (fun call => see.call_addErrorLists call verdict.errors) state
  | _ => rfl

theorem shows_acceptOutcome (setting : Setting ω) (step : String) (answer : Answer) :
    see.Shows (setting.acceptOutcome step answer)
      ((see.setting setting).acceptOutcome step (see.answer answer)) := by
  intro state
  cases answer with
  | outcome outcome =>
    have hentry : see.trace = true → TraceEntry.operation step outcome.trace
        = .operation step (see.outcome outcome).trace :=
      fun htrace => congrArg (TraceEntry.operation step) (if_pos htrace).symm
    rw [Setting.acceptOutcome, answer_outcome, Setting.acceptOutcome, isSuccess_outcome]
    dsimp only
    split
    · refine see.shows_proceedWith (fun call => ?_) state
      rw [call_recordOutput, see.call_mapOutcome _ (see.outcome_nest setting step hentry _),
        call_addInformation]
      rfl
    · refine see.shows_proceedWith (fun call => ?_) state
      rw [call_mergeFailures, call_addInformation]
      rfl
  | _ => rfl

theorem shows_acceptOutcomes (setting : Setting ω) (step : String) (answer : Answer) :
    see.Shows (setting.acceptOutcomes step answer)
      ((see.setting setting).acceptOutcomes step (see.answer answer)) := by
  intro state
  cases answer with
  | outcomes outcomes =>
    have hfailed : (outcomes.map see.outcome).filter Outcome.isFailure
        = (outcomes.filter Outcome.isFailure).map see.outcome := List.filter_map
    have hentry : see.trace = true → TraceEntry.operations step (outcomes.map (·.trace))
        = .operations step ((outcomes.map see.outcome).map (·.trace)) := by
      intro htrace
      simp [Vantage.outcome, htrace]
    have houtputs : (outcomes.map see.outcome).map (·.output) = outcomes.map (·.output) :=
      List.map_map
    rw [Setting.acceptOutcomes, answer_outcomes, Setting.acceptOutcomes, hfailed, houtputs,
      List.isEmpty_map]
    split
    · refine see.shows_proceedWith (fun call => ?_) state
      rw [call_recordOutput, see.call_mapOutcome _ (see.outcome_nest setting step hentry _)]
    · exact see.shows_proceedWith
        (fun call => see.call_mapOutcome call (see.outcome_foldl_mergeFailures _ _)) state
  | _ => rfl

theorem truthy_answer (answer : Answer) : (see.answer answer).truthy = answer.truthy := by
  cases answer <;> rfl

theorem shows_acceptCondition (answer : Answer) :
    see.Shows (Setting.acceptCondition answer) (Setting.acceptCondition (see.answer answer)) := by
  intro state
  rw [Setting.acceptCondition, Setting.acceptCondition, truthy_answer]
  split <;> rfl

/-- What is seen of taking an answer is that what is seen of the answer is taken. -/
theorem shows_accept (setting : Setting ω) (kind : Kind) (step : String) (answer : Answer) :
    see.Shows (setting.accept kind step answer)
      ((see.setting setting).accept kind step (see.answer answer)) := by
  cases kind with
  | validate => exact see.shows_acceptVerdict step answer
  | operation => exact see.shows_acceptOutcome setting step answer
  | operations => exact see.shows_acceptOutcomes setting step answer
  | finishIf => exact see.shows_acceptCondition answer
  | _ => exact fun _ => rfl

end Vantage

end OperationPipeline

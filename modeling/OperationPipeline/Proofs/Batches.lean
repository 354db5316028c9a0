import OperationPipeline.Proofs.Gathering
import OperationPipeline.Proofs.Relaying
import OperationPipeline.Proofs.Tracing

set_option autoImplicit false

/-! # Lists of outcomes

An `operations` step answers with a list of outcomes, which is taken as a whole. If no outcome of
the list is a failure, the traces and outputs of all of them are taken over, in order; one failed
outcome is enough for none of that to happen, and for the failures of all of them to be taken over.

Taking over the failures of a successful outcome changes nothing (`mergeFailures_of_success`), so it
makes no difference whether the engine picks the failed ones.

Main statement: `Setting.operations_all_or_nothing`. -/

namespace OperationPipeline

namespace Outcome

/-! ## Merging many outcomes -/

theorem mergeFailures_of_success {other : Outcome} (h : other.isFailure = false)
    (outcome : Outcome) : outcome.mergeFailures other = outcome := by
  obtain ⟨herrors, hexceptions⟩ : other.errors = [] ∧ other.exceptions = [] := by
    simpa [isFailure] using h
  rw [mergeFailures, herrors, hexceptions]
  rfl

theorem foldl_mergeFailures_filter (outcome : Outcome) (others : List Outcome) :
    (others.filter isFailure).foldl mergeFailures outcome = others.foldl mergeFailures outcome := by
  induction others generalizing outcome with
  | nil => rfl
  | cons other rest ih =>
    cases hfailed : other.isFailure with
    | true => rw [List.filter_cons_of_pos hfailed, List.foldl_cons, List.foldl_cons, ih]
    | false =>
      rw [List.filter_cons_of_neg (Bool.eq_false_iff.1 hfailed), List.foldl_cons,
        mergeFailures_of_success hfailed, ih]

/-- Only failures are different once others were merged. -/
theorem foldl_mergeFailures_eq (outcome : Outcome) (others : List Outcome) :
    others.foldl mergeFailures outcome = { outcome with
      errors := (others.foldl mergeFailures outcome).errors
      exceptions := (others.foldl mergeFailures outcome).exceptions } := by
  have hview := view_foldl_mergeFailures
    (fun outcome : Outcome => { outcome with errors := [], exceptions := [] })
    (fun _ _ _ => rfl) outcome others
  exact congrArg (fun rest : Outcome => { rest with
    errors := (others.foldl mergeFailures outcome).errors
    exceptions := (others.foldl mergeFailures outcome).exceptions }) hview

theorem isFailure_foldl_mergeFailures_iff {others : List Outcome}
    (h : ∀ other ∈ others, other.Tidy) (outcome : Outcome) :
    (others.foldl mergeFailures outcome).isFailure = true
      ↔ outcome.isFailure = true ∨ ∃ other ∈ others, other.isFailure = true := by
  induction others generalizing outcome with
  | nil => simp
  | cons other rest ih =>
    obtain ⟨hother, hrest⟩ := List.forall_mem_cons.1 h
    rw [List.foldl_cons, ih hrest, isFailure_mergeFailures_iff outcome hother, or_assoc]
    simp

end Outcome

variable {ω : Type} {setting : Setting ω}

/-! ## One answer -/

/-- One outcome counts as a list of one. -/
theorem Answer.failed_singleton (outcome : Outcome) :
    failed .operation (.outcome outcome) = failed .operations (.outcomes [outcome]) := by
  cases hfailed : outcome.isFailure <;> simp [failed, hfailed]

namespace Setting.Accepts

variable {step : String} {before after : Call} {outcomes : List Outcome}
  {result : Except EngineError Unit}

/-- A list without a failed outcome is taken over. -/
theorem takes_all (h : setting.Accepts step before .operations (.outcomes outcomes) result after)
    (hnone : ∀ outcome ∈ outcomes, outcome.isFailure = false) :
    result = .ok () ∧ after = (before.mapOutcome
      (setting.nest step (.operations step (outcomes.map (·.trace))))).recordOutput step
        (.array (outcomes.map (·.output))) := by
  cases h with
  | rejected hrejected => exact nomatch hrejected
  | ignored hvalidate hoperation hoperations => exact absurd rfl hoperations
  | operationsPassed => exact ⟨rfl, rfl⟩
  | operationsFailed hsome =>
    exact absurd (List.filter_eq_nil_iff.2 fun outcome houtcome =>
      Bool.eq_false_iff.1 (hnone outcome houtcome)) hsome

/-- From a list with a failed outcome, the failures are taken over. -/
theorem takes_failures
    (h : setting.Accepts step before .operations (.outcomes outcomes) result after)
    (hsome : ∃ outcome ∈ outcomes, outcome.isFailure = true) :
    result = .ok () ∧ after = before.mapOutcome
      fun outcome => outcomes.foldl Outcome.mergeFailures outcome := by
  cases h with
  | rejected hrejected => exact nomatch hrejected
  | ignored hvalidate hoperation hoperations => exact absurd rfl hoperations
  | operationsPassed hnone =>
    obtain ⟨outcome, houtcome, hfailed⟩ := hsome
    exact absurd hfailed (List.filter_eq_nil_iff.1 hnone outcome houtcome)
  | operationsFailed =>
    refine ⟨rfl, ?_⟩
    simp only [Outcome.foldl_mergeFailures_filter]

end Setting.Accepts

/-! ## One step -/

namespace Setting

/-- The trace with an entry more, if steps are traced. -/
def traceWith (setting : Setting ω) (trace : List TraceEntry) (entry : TraceEntry) :
    List TraceEntry :=
  trace ++ if setting.config.tracesSteps then [entry] else []

theorem trace_tracedCall_eq (setting : Setting ω) (step : String) (call : Call) :
    (setting.tracedCall step call).outcome.trace
      = setting.traceWith call.outcome.trace (.step step) := by
  rw [tracedCall, traceWith]
  split
  · rfl
  · exact (List.append_nil _).symm

/-- The plain entry of a step gives way to the nested one. -/
theorem nest_of_traceWith {outcome : Outcome} {earlier : List TraceEntry} {step : String}
    (h : outcome.trace = setting.traceWith earlier (.step step)) (entry : TraceEntry) :
    setting.nest step entry outcome
      = { outcome with trace := setting.traceWith earlier entry } := by
  rw [traceWith] at h ⊢
  by_cases htraces : setting.config.tracesSteps = true
  · rw [if_pos htraces] at h ⊢
    rw [nest, if_pos htraces, nestedTrace, h]
    simp
  · rw [if_neg htraces, List.append_nil] at h ⊢
    rw [nest, if_neg htraces, ← h]

/-- What a step that nothing is wrapped around makes of the answer of its handler. -/
theorem accepts_of_returned (setting : Setting ω) {kind inherited : Kind}
    (htransaction : kind ≠ .transaction) (hbenchmark : kind ≠ .benchmark) {step : String}
    {handler : Handler ω} {path : Path} {call : Call} {world : ω} {answer : Answer} {mid : Call}
    (hreturned : .returned path (.answered answer) mid
      ∈ (setting.follow (.leaf kind step handler) path inherited ⟨call, ⟨world, []⟩⟩).2.world.log) :
    let ran := setting.follow (.leaf kind step handler) path inherited ⟨call, ⟨world, []⟩⟩
    handler.Leads (setting.tracedCall step call) (.answered answer) mid
      ∧ setting.Accepts step mid (Scope.leafKind kind inherited) answer ran.1 ran.2.call := by
  intro ran
  obtain ⟨events, hlog, hcourse⟩ := setting.takes_follow (.leaf kind step handler) path inherited
    ⟨call, ⟨world, []⟩⟩
  obtain ⟨inner, rfl, hstepped⟩ := hcourse.stepped_of_leaf htransaction hbenchmark
  have hinner : .returned path (.answered answer) mid ∈ inner := by
    rw [hlog] at hreturned
    simpa using hreturned
  obtain ⟨hleads, ⟨_, hanswer, haccepts⟩ | ⟨_, _, hfault, -⟩⟩ := hstepped.of_returned hinner
  · obtain rfl := HandlerEnd.answered.inj hanswer
    exact ⟨hleads, haccepts⟩
  · exact nomatch hfault

/-- An `operations` step takes all of its list or nothing. Let a step that is run as one answer with
    a list of outcomes, and let its handler leave the trace of its call alone; what else the handler
    did to the call does not matter. If no outcome of the list is a failure, the outputs and the
    traces of all of them are taken over in order, as one output record and as one entry in place of
    the step's own, and nothing else changes. If one is a failure, the errors and exceptions of all
    of them are merged in order, and nothing else changes. Either way no error is raised, and the
    outcome is a failure then if and only if it was one before or there is one in the list. A list
    of one outcome leaves the errors and exceptions that an `operation` step leaves which answers
    with that outcome. -/
theorem operations_all_or_nothing (setting : Setting ω) {kind inherited : Kind}
    (hkind : Scope.leafKind kind inherited = .operations) (step : String) {handler : Handler ω}
    (hhandler : handler.Spares Outcome.trace) (path : Path) (call : Call) (world : ω) :
    let ran := setting.follow (.leaf kind step handler) path inherited ⟨call, ⟨world, []⟩⟩
    let after := ran.2.call
    ∀ outcomes mid, .returned path (.answered (.outcomes outcomes)) mid ∈ ran.2.world.log →
      (∀ outcome ∈ outcomes, outcome.Tidy) →
      let merged := outcomes.foldl Outcome.mergeFailures mid.outcome
      ran.1 = .ok ()
      ∧ mid.outcome.trace = setting.traceWith call.outcome.trace (.step step)
      ∧ ((∀ outcome ∈ outcomes, outcome.isFailure = false) →
        after = { mid with
          context := mid.context.recordOutput step (.array (outcomes.map (·.output)))
          outcome := { mid.outcome with
            trace := setting.traceWith call.outcome.trace
              (.operations step (outcomes.map (·.trace))) } })
      ∧ ((∃ outcome ∈ outcomes, outcome.isFailure = true) →
        after = { mid with
          outcome := { mid.outcome with
            errors := merged.errors
            exceptions := merged.exceptions } })
      ∧ (after.outcome.isFailure = true
        ↔ mid.outcome.isFailure = true ∨ ∃ outcome ∈ outcomes, outcome.isFailure = true)
      ∧ ∀ outcome, outcomes = [outcome] →
        ∀ kind inherited step (handler : Handler ω) path call world mid',
          Scope.leafKind kind inherited = .operation →
          let single := setting.follow (.leaf kind step handler) path inherited
            ⟨call, ⟨world, []⟩⟩
          .returned path (.answered (.outcome outcome)) mid' ∈ single.2.world.log →
          mid'.outcome.errors = mid.outcome.errors →
          mid'.outcome.exceptions = mid.outcome.exceptions →
            single.2.call.outcome.errors = after.outcome.errors
              ∧ single.2.call.outcome.exceptions = after.outcome.exceptions := by
  intro ran after outcomes mid hreturned htidy merged
  have hplain : ∀ {kind inherited : Kind}, (Scope.leafKind kind inherited = .operation
      ∨ Scope.leafKind kind inherited = .operations) → kind ≠ .transaction ∧ kind ≠ .benchmark := by
    rintro kind inherited (h | h) <;> constructor <;> rintro rfl <;> exact nomatch h
  obtain ⟨htransaction, hbenchmark⟩ := hplain (Or.inr hkind)
  obtain ⟨hleads, haccepts⟩ :=
    setting.accepts_of_returned htransaction hbenchmark hreturned
  have htrace : mid.outcome.trace = setting.traceWith call.outcome.trace (.step step) :=
    (hhandler.leads hleads).trans (setting.trace_tracedCall_eq step call)
  have hfailures : after.outcome.onlyFailures = merged.onlyFailures := by
    rw [haccepts.collects, hkind, Outcome.onlyFailures_foldl_mergeFailures]
    exact Outcome.foldl_mergeFailures_filter mid.outcome.onlyFailures outcomes
  obtain ⟨herrors, hexceptions⟩ := Outcome.onlyFailures_eq_iff.1 hfailures
  rw [hkind] at haccepts
  refine ⟨?_, htrace, fun hnone => ?_, fun hsome => ?_, ?_, ?_⟩
  · by_cases hsome : ∃ outcome ∈ outcomes, outcome.isFailure = true
    · exact (haccepts.takes_failures hsome).1
    · exact (haccepts.takes_all fun outcome houtcome =>
        Bool.eq_false_iff.2 fun hfailed => hsome ⟨outcome, houtcome, hfailed⟩).1
  · have hafter : after = _ := (haccepts.takes_all hnone).2
    rw [hafter, Call.mapOutcome, nest_of_traceWith htrace]
    rfl
  · have hafter : after = _ := (haccepts.takes_failures hsome).2
    rw [hafter, Call.mapOutcome, Outcome.foldl_mergeFailures_eq]
  · have hmerged : after.outcome.isFailure = merged.isFailure := by
      rw [Outcome.isFailure, Outcome.isFailure, herrors, hexceptions]
    rw [hmerged, Outcome.isFailure_foldl_mergeFailures_iff htidy]
  · rintro outcome rfl kind inherited step handler path call world mid' hoperation single hanswered
      hsameErrors hsameExceptions
    obtain ⟨htransaction, hbenchmark⟩ := hplain (Or.inl hoperation)
    obtain ⟨-, hsingle⟩ := setting.accepts_of_returned htransaction hbenchmark hanswered
    refine Outcome.onlyFailures_eq_iff.1 ?_
    rw [hsingle.collects, haccepts.collects, hoperation, Answer.failed_singleton,
      Outcome.onlyFailures_eq_iff.2 ⟨hsameErrors, hsameExceptions⟩]

/-- A handler that adds an error of its own and answers with a list of outcomes. -/
def answeringAll (outcomes : List Outcome) : Handler Unit := fun state =>
  (.answered (.outcomes outcomes),
    { state with call := state.call.mapOutcome (·.addError "base" (.string "busy")) })

/-- One outcome that succeeded, and two that failed. -/
def mixedOutcomes : List Outcome :=
  [.built (.string "Ann") [.addTrace (.step "parse")],
    .built .null [.addError "name" (.string "taken"), .addError "base" (.string "busy")],
    .built .null [.addException "store" "no connection" none]]

/-- The call after the handler. -/
def busyCall : Call where
  outcome := { errors := [("base", [.string "busy"])], trace := [.step "import"] }

/-- Of the three outcomes only the failures are left; the first one alone is taken over, though the
    outcome of the call is a failure. -/
theorem takes_nothing_of_mixed_outcomes :
    let ran := fun outcomes => direct.follow (.leaf .operations "import" (answeringAll outcomes))
      [0] .step ⟨Call.start {}, ⟨(), []⟩⟩
    (∀ outcomes, (answeringAll outcomes).Spares Outcome.trace)
      ∧ (∀ outcome ∈ mixedOutcomes, outcome.Tidy)
      ∧ (ran mixedOutcomes).2.call.outcome.errors
        = [("base", [.string "busy"]), ("name", [.string "taken"])]
      ∧ (ran mixedOutcomes).2.call.outcome.exceptions = [("store", ["no connection"])]
      ∧ (ran mixedOutcomes).2.call.outcome.trace = [.step "import"]
      ∧ (ran mixedOutcomes).2.call.context.outputOf "import" = none
      ∧ (ran (mixedOutcomes.take 1)).2.call.outcome.trace
        = [.operations "import" [[.step "parse"]]]
      ∧ (ran (mixedOutcomes.take 1)).2.call.context.outputOf "import"
        = some (.array [.string "Ann"])
      ∧ (ran (mixedOutcomes.take 1)).2.call.outcome.isFailure = true := by
  intro ran
  have hspares : ∀ outcomes, (answeringAll outcomes).Spares Outcome.trace :=
    fun outcomes state => Outcome.view_addErrors Outcome.trace (fun _ _ => rfl) state.call.outcome
      [("base", .string "busy")]
  have htidy : ∀ outcome ∈ mixedOutcomes, outcome.Tidy := by
    simp only [mixedOutcomes, List.forall_mem_cons]
    exact ⟨Outcome.tidy_built _ _, Outcome.tidy_built _ _, Outcome.tidy_built _ _,
      List.forall_mem_nil _⟩
  have hmixed : .returned [0] (.answered (.outcomes mixedOutcomes)) busyCall
      ∈ (ran mixedOutcomes).2.world.log := .tail _ (.tail _ (.head _))
  have hfirst : .returned [0] (.answered (.outcomes (mixedOutcomes.take 1))) busyCall
      ∈ (ran (mixedOutcomes.take 1)).2.world.log := .tail _ (.tail _ (.head _))
  obtain ⟨-, -, -, hmerged, -⟩ := operations_all_or_nothing direct rfl "import" (hspares _) [0]
    (Call.start {}) () mixedOutcomes _ hmixed htidy
  obtain ⟨-, -, htaken, -, hfailed, -⟩ := operations_all_or_nothing direct rfl "import" (hspares _)
    [0] (Call.start {}) () (mixedOutcomes.take 1) _ hfirst
    fun outcome houtcome => htidy outcome (List.mem_of_mem_take houtcome)
  have hleft := hmerged ⟨_, List.mem_cons_of_mem _ List.mem_cons_self, rfl⟩
  have hall := htaken (List.forall_mem_singleton.2 rfl)
  refine ⟨hspares, htidy, ?_, ?_, ?_, ?_, ?_, ?_, hfailed.2 (Or.inl rfl)⟩
  · rw [hleft]
    rfl
  · rw [hleft]
    rfl
  · rw [hleft]
    rfl
  · rw [hleft]
    rfl
  · rw [hall]
    rfl
  · rw [hall]
    exact Context.outputOf_recordOutput _ _ _

end Setting

end OperationPipeline

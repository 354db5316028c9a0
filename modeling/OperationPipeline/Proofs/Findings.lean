import OperationPipeline.Proofs.Merging
import OperationPipeline.Proofs.Tracing

set_option autoImplicit false

/-! # Findings

What the steps of a `validate` block find: a verdict, an outcome or a fault each. `gather` adds one
finding to an outcome, `recordFound` to a context. A call that goes through several of them
(`Setting.gatherAll`) ends with the failures and the output records that they make in turn, with one
plain trace entry for each, and with all else as it was. -/

namespace OperationPipeline

variable {ω : Type} {setting : Setting ω}

/-- Whether a handler ends as a validation may: with a verdict, an outcome, or a fault that is
    recorded rather than raised. -/
def HandlerEnd.IsFinding (ending : HandlerEnd) : Prop :=
  match ending.result with
  | .ok (.verdict _) | .ok (.outcome _) => True
  | .ok _ => False
  | .error fault => fault.authoring? = none

/-- Whether a handler leaves the call alone and ends as a validation may. -/
def Handler.Validates (handler : Handler ω) : Prop :=
  ∀ state, (handler state).2.call = state.call ∧ (handler state).1.IsFinding

/-- What a validation that passed puts out. -/
def HandlerEnd.record? (ending : HandlerEnd) : Option Json :=
  match ending.result with
  | .ok (.verdict verdict) => if verdict.success then some (.object verdict.values) else none
  | .ok (.outcome outcome) => if outcome.isSuccess then some outcome.output else none
  | .ok _ | .error _ => none

namespace Outcome

/-- Adds what a validation found: the errors of a verdict that failed, the failures of an outcome
    that failed, or an exception for a fault. What passed adds nothing. -/
def gather (operation : Option String) (outcome : Outcome) :
    String × HandlerEnd → Outcome
  | (step, ending) =>
    match ending.result with
    | .ok (.verdict verdict) =>
      if verdict.success then outcome else outcome.addErrorLists verdict.errors
    | .ok (.outcome found) => if found.isSuccess then outcome else outcome.mergeFailures found
    | .ok _ => outcome
    | .error fault => outcome.addException step fault.recovered.message operation

/-- What does not depend on failures stays as it is when findings are gathered. -/
theorem view_gather {α : Type} (view : Outcome → α)
    (h : ∀ outcome errors exceptions, view { outcome with errors, exceptions } = view outcome)
    (operation : Option String) (outcome : Outcome) (found : String × HandlerEnd) :
    view (outcome.gather operation found) = view outcome := by
  obtain ⟨step, ending⟩ := found
  rw [gather]
  split
  · split
    · rfl
    · exact view_addErrors view (fun outcome errors => h outcome errors outcome.exceptions) _ _
  · split
    · rfl
    · exact view_mergeFailures view h _ _
  · rfl
  · exact h outcome outcome.errors _

/-- Which failures there are afterwards depends on the failures before, and on nothing else. -/
theorem onlyFailures_gather (operation : Option String) (outcome : Outcome)
    (found : String × HandlerEnd) :
    (outcome.gather operation found).onlyFailures
      = outcome.onlyFailures.gather operation found := by
  obtain ⟨step, ending⟩ := found
  rw [gather, gather]
  split
  · split
    · rfl
    · exact onlyFailures_addErrors _ _
  · split
    · rfl
    · exact onlyFailures_mergeFailures _ _
  · rfl
  · rfl

theorem onlyFailures_foldl_gather (operation : Option String) (outcome : Outcome)
    (found : List (String × HandlerEnd)) :
    (found.foldl (gather operation) outcome).onlyFailures
      = found.foldl (gather operation) outcome.onlyFailures := by
  induction found generalizing outcome with
  | nil => rfl
  | cons first rest ih =>
    rw [List.foldl_cons, List.foldl_cons, ih, onlyFailures_gather]

end Outcome

namespace Context

theorem outputKey_injective {step other : String} (h : outputKey step = outputKey other) :
    step = other := by
  have hlists := congrArg String.toList h
  rw [outputKey, outputKey, String.toList_append, String.toList_append] at hlists
  exact String.toList_injective (List.append_cancel_right hlists)

/-- Records the output of a step, if there is one. -/
def recordFound (context : Context) : String × HandlerEnd → Context
  | (step, ending) =>
    match ending.record? with
    | some output => context.recordOutput step output
    | none => context

/-- The output of the last validation under the name of the step that passed. -/
def lastRecord (step : String) (found : List (String × HandlerEnd)) : Option Json :=
  found.reverse.findSome? fun (name, ending) => if name = step then ending.record? else none

theorem lastRecord_cons (step : String) (first : String × HandlerEnd)
    (rest : List (String × HandlerEnd)) :
    lastRecord step (first :: rest)
      = (lastRecord step rest).or (if first.1 = step then first.2.record? else none) := by
  rw [lastRecord, List.reverse_cons, List.findSome?_append, List.findSome?_singleton]
  rfl

theorem outputOf_recordFound (context : Context) (found : String × HandlerEnd) (step : String) :
    (context.recordFound found).outputOf step
      = (if found.1 = step then found.2.record? else none).or (context.outputOf step) := by
  obtain ⟨name, ending⟩ := found
  rw [recordFound]
  split
  · rename_i output houtput
    rw [recordOutput, outputOf, get?_insert]
    by_cases hname : name = step
    · rw [if_pos (congrArg outputKey hname), if_pos hname, houtput, Option.some_or]
    · rw [if_neg fun hkey => hname (outputKey_injective hkey), if_neg hname, Option.none_or]
      rfl
  · rename_i hnone
    rw [hnone, ite_self, Option.none_or]

theorem get?_recordFound (context : Context) (found : String × HandlerEnd) {key : String}
    (h : ∀ step, key ≠ outputKey step) :
    (context.recordFound found).get? key = context.get? key := by
  obtain ⟨name, ending⟩ := found
  rw [recordFound]
  split
  · rw [recordOutput, get?_insert, if_neg (h name).symm]
  · rfl

/-- The last one that passed is what remains of a step's outputs. -/
theorem outputOf_foldl_recordFound (context : Context) (found : List (String × HandlerEnd))
    (step : String) :
    (found.foldl recordFound context).outputOf step
      = (lastRecord step found).or (context.outputOf step) := by
  induction found generalizing context with
  | nil => rfl
  | cons first rest ih =>
    rw [List.foldl_cons, ih, outputOf_recordFound, lastRecord_cons, Option.or_assoc]

theorem get?_foldl_recordFound (context : Context) (found : List (String × HandlerEnd))
    {key : String} (h : ∀ step, key ≠ outputKey step) :
    (found.foldl recordFound context).get? key = context.get? key := by
  induction found generalizing context with
  | nil => rfl
  | cons first rest ih => rw [List.foldl_cons, ih, get?_recordFound _ _ h]

end Context

namespace Call

/-- The call after a validation, which left it alone. -/
def gather (operation : Option String) (call : Call) (found : String × HandlerEnd) : Call :=
  { call with
    outcome := call.outcome.gather operation found
    context := call.context.recordFound found }

end Call

theorem Handler.Validates.leads {handler : Handler ω} (h : handler.Validates) {before after : Call}
    {ending : HandlerEnd} (hleads : handler.Leads before ending after) :
    after = before ∧ ending.IsFinding := by
  obtain ⟨world, world', hrun⟩ := hleads
  have hvalidates := h ⟨before, world⟩
  rw [hrun] at hvalidates
  exact hvalidates

/-! ## One after another -/

namespace Setting

/-- The call after validations that ended in the given ways. -/
def gatherAll (setting : Setting ω) (found : List (String × HandlerEnd)) (call : Call) : Call :=
  found.foldl (fun call found => (setting.tracedCall found.1 call).gather setting.name found) call

theorem gatherAll_cons (first : String × HandlerEnd) (rest : List (String × HandlerEnd))
    (call : Call) :
    setting.gatherAll (first :: rest) call
      = setting.gatherAll rest ((setting.tracedCall first.1 call).gather setting.name first) := rfl

theorem tracedCall_eq (step : String) (call : Call) :
    ∃ trace, setting.tracedCall step call
      = { call with outcome := { call.outcome with trace } } := by
  rw [tracedCall]
  split
  · exact ⟨_, rfl⟩
  · exact ⟨call.outcome.trace, rfl⟩

/-- What neither failures nor the context nor the trace have to do with stays as it is. -/
theorem view_gatherAll {α : Type} (view : Call → α)
    (h : ∀ (call : Call) context errors exceptions trace,
      view { call with context, outcome := { call.outcome with errors, exceptions, trace } }
        = view call)
    (found : List (String × HandlerEnd)) (call : Call) :
    view (setting.gatherAll found call) = view call := by
  induction found generalizing call with
  | nil => rfl
  | cons first rest ih =>
    obtain ⟨trace, htraced⟩ := setting.tracedCall_eq first.1 call
    have hgather := Outcome.view_gather
      (fun outcome => view { call with context := call.context.recordFound first, outcome })
      (fun outcome errors exceptions => by
        have hnew := h { call with outcome } (call.context.recordFound first) errors exceptions
          outcome.trace
        have hold := h { call with outcome } (call.context.recordFound first) outcome.errors
          outcome.exceptions outcome.trace
        exact hnew.trans hold.symm)
      setting.name { call.outcome with trace } first
    rw [gatherAll_cons, ih, htraced]
    exact hgather.trans (h call _ call.outcome.errors call.outcome.exceptions trace)

theorem onlyFailures_gatherAll (found : List (String × HandlerEnd)) (call : Call) :
    (setting.gatherAll found call).outcome.onlyFailures
      = found.foldl (Outcome.gather setting.name) call.outcome.onlyFailures := by
  induction found generalizing call with
  | nil => rfl
  | cons first rest ih =>
    obtain ⟨trace, htraced⟩ := setting.tracedCall_eq first.1 call
    rw [gatherAll_cons, ih, htraced, List.foldl_cons]
    exact congrArg (List.foldl _ · rest) (Outcome.onlyFailures_gather _ _ first)

theorem context_gatherAll (found : List (String × HandlerEnd)) (call : Call) :
    (setting.gatherAll found call).context = found.foldl Context.recordFound call.context := by
  induction found generalizing call with
  | nil => rfl
  | cons first rest ih =>
    obtain ⟨trace, htraced⟩ := setting.tracedCall_eq first.1 call
    rw [gatherAll_cons, ih, htraced]
    rfl

theorem trace_gatherAll (found : List (String × HandlerEnd)) (call : Call) :
    (setting.gatherAll found call).outcome.trace = call.outcome.trace
      ++ if setting.config.tracesSteps then found.map fun found => .step found.1 else [] := by
  induction found generalizing call with
  | nil => simp [gatherAll]
  | cons first rest ih =>
    have hfirst := Outcome.view_gather Outcome.trace (fun _ _ _ => rfl) setting.name
      (setting.tracedCall first.1 call).outcome first
    rw [gatherAll_cons, ih, Call.gather, hfirst]
    by_cases htraces : setting.config.tracesSteps = true
    · rw [trace_tracedCall htraces, if_pos htraces, if_pos htraces, List.append_assoc]
      rfl
    · rw [tracedCall, if_neg htraces, if_neg htraces, if_neg htraces]

end Setting

end OperationPipeline

import OperationPipeline.Proofs.Blocks
import OperationPipeline.Proofs.Messages

set_option autoImplicit false

/-! # Steps that check

A step that is run as a `validate`, `operation` or `operations` step has its answer looked at. After
such a step has answered or faulted, the outcome is a failure or the output of the step is recorded
(`Stepped.checks`), with one exception: a verdict that failed without a message to go with it. Such
a verdict can be built: checking values records a message even if it is `null`, and adding it to an
outcome adds nothing (`Validation.speaks_built_iff`). -/

namespace OperationPipeline

/-! ## What a validation says -/

theorem Entries.mem_put_self {α : Type} (key : String) (value : α) (entries : Entries α) :
    (key, value) ∈ entries.put key value := by
  induction entries with
  | nil => exact List.mem_cons_self
  | cons first rest ih =>
    obtain ⟨k, v⟩ := first
    rw [put]
    split
    · rename_i hk
      rw [hk]
      exact List.mem_cons_self
    · exact List.mem_cons_of_mem _ ih

/-- An entry stays unless its value is the one that is replaced. -/
theorem Entries.mem_put_or_at?_eq {α : Type} {key : String} {value : α} {entries : Entries α}
    {entry : String × α} (h : entry ∈ entries) :
    entry ∈ entries.put key value ∨ entries.at? key = some entry.2 := by
  induction entries with
  | nil => exact nomatch h
  | cons first rest ih =>
    obtain ⟨k, v⟩ := first
    rw [put, at?]
    split
    · rcases List.mem_cons.1 h with rfl | h
      · exact Or.inr rfl
      · exact Or.inl (List.mem_cons_of_mem _ h)
    · rcases List.mem_cons.1 h with rfl | h
      · exact Or.inl List.mem_cons_self
      · exact (ih h).imp (List.mem_cons_of_mem _) id

theorem Json.isNull_of_same {a b : Json} (h : a.same b = true) (hb : b.isNull = false) :
    a.isNull = false := by
  cases a with
  | null =>
    cases b with
    | null => exact nomatch hb
    | _ => exact nomatch h
  | _ => rfl

/-- Whether one of the messages of a verdict is not `null`. -/
def Verdict.Speaks (verdict : Verdict) : Prop :=
  ∃ entry ∈ verdict.errors, ∃ message ∈ entry.2, message.isNull = false

namespace Validation

/-- One step in checking values. -/
inductive Step where
  | error (field : String) (message : Json)
  | check (field : String) (passes : Json → Bool) (message : Json)

/-- Carries out a step. -/
def run (validation : Validation) : Step → Validation
  | .error field message => validation.addError field message
  | .check field passes message => validation.check field passes message

/-- The validation of the given values that comes from the steps, in turn. -/
def built (values : Entries Json) (steps : List Step) : Validation :=
  steps.foldl run (ofValues values)

/-- The field and the message of the error that a step finds in the values, if it finds one. -/
def Step.found? (values : Entries Json) : Step → Option (String × Json)
  | .error field message => some (field, message)
  | .check field passes message =>
    if passes ((values.at? field).getD .null) then none else some (field, message)

theorem run_eq (validation : Validation) (step : Step) :
    validation.run step = match step.found? validation.values with
      | none => validation
      | some (field, message) => validation.addError field message := by
  cases step with
  | error field message => rfl
  | check field passes message =>
    rw [run, check, Step.found?]
    split <;> rfl

/-- The list of a field keeps its messages when one is recorded, and gets no other one. -/
theorem errors_addError (validation : Validation) (field : String) (message : Json) :
    ∃ messages, (validation.addError field message).errors = validation.errors.put field messages
      ∧ (∀ item ∈ (validation.errors.at? field).getD [], item ∈ messages)
      ∧ (∀ item ∈ messages, item ∈ (validation.errors.at? field).getD [] ∨ item = message)
      ∧ ∃ item ∈ messages, item.same message = true := by
  refine ⟨_, rfl, ?_⟩
  split
  · rename_i hany
    exact ⟨fun _ hitem => hitem, fun _ hitem => Or.inl hitem, List.any_eq_true.1 hany⟩
  · refine ⟨fun _ hitem => List.mem_append_left _ hitem, fun _ hitem => ?_, message,
      List.mem_append_right _ (List.mem_singleton_self _), message.same_refl⟩
    exact (List.mem_append.1 hitem).imp id List.mem_singleton.1

theorem speaks_addError_iff (validation : Validation) (field : String) (message : Json) :
    (validation.addError field message).verdict.Speaks
      ↔ validation.verdict.Speaks ∨ message.isNull = false := by
  obtain ⟨messages, herrors, hkept, hnew, same, hsame, hmessage⟩ :=
    validation.errors_addError field message
  rw [Verdict.Speaks, Verdict.Speaks, verdict, herrors]
  have hlisted : (field, messages) ∈ validation.errors.put field messages :=
    Entries.mem_put_self field messages validation.errors
  constructor
  · rintro ⟨entry, hentry, item, hitem, hsome⟩
    rcases Entries.mem_put hentry with rfl | hold
    · rcases hnew item hitem with hitem | rfl
      · cases hat : validation.errors.at? field with
        | none =>
          rw [hat] at hitem
          exact nomatch hitem
        | some found =>
          rw [hat] at hitem
          exact Or.inl ⟨_, Entries.mem_of_at?_eq_some hat, item, hitem, hsome⟩
      · exact Or.inr hsome
    · exact Or.inl ⟨entry, hold, item, hitem, hsome⟩
  · rintro (⟨entry, hentry, item, hitem, hsome⟩ | hsome)
    · rcases Entries.mem_put_or_at?_eq hentry with hstays | hat
      · exact ⟨entry, hstays, item, hitem, hsome⟩
      · have hfound : validation.errors.at? field = some entry.2 := hat
        rw [hfound, Option.getD_some] at hkept
        exact ⟨_, hlisted, item, hkept item hitem, hsome⟩
    · exact ⟨_, hlisted, same, hsame, Json.isNull_of_same hmessage hsome⟩

theorem values_run (validation : Validation) (step : Step) :
    (validation.run step).values = validation.values := by
  rw [run_eq]
  split <;> rfl

/-- A validation says something if and only if one of the errors that were found has a message that
    is not `null`. -/
theorem speaks_built_iff (values : Entries Json) (steps : List Step) :
    (built values steps).verdict.Speaks
      ↔ ∃ error ∈ steps.filterMap (Step.found? values), error.2.isNull = false := by
  -- no step changes the values, so what a step finds does not depend on those before it
  have hfold : ∀ validation : Validation, validation.values = values →
      ((steps.foldl run validation).verdict.Speaks ↔ validation.verdict.Speaks
        ∨ ∃ error ∈ steps.filterMap (Step.found? values), error.2.isNull = false) := by
    induction steps with
    | nil => simp
    | cons step rest ih =>
      rintro validation rfl
      rw [List.foldl_cons, ih _ (validation.values_run step), run_eq]
      cases hfound : step.found? validation.values with
      | none => rw [List.filterMap_cons_none hfound]
      | some error =>
        rw [List.filterMap_cons_some hfound, speaks_addError_iff, or_assoc]
        simp only [List.mem_cons, exists_eq_or_imp]
  rw [built, hfold (ofValues values) rfl]
  have hsilent : ¬ (ofValues values).verdict.Speaks := fun ⟨_, hentry, _⟩ => nomatch hentry
  simp only [hsilent, false_or]

end Validation

/-! ## What checking leaves behind -/

/-- The kinds whose steps have their answers checked. -/
def Kind.Checks (kind : Kind) : Prop :=
  kind = .validate ∨ kind = .operation ∨ kind = .operations

/-- Whether the outcomes that an answer consists of are explicit. -/
def Answer.Explicit (answer : Answer) : Prop :=
  match answer with
  | .outcome found => found.Explicit
  | .outcomes all => ∀ found ∈ all, found.Explicit
  | .nothing | .flag _ | .value _ | .verdict _ => True

/-- Whether a handler leaves behind and answers with explicit outcomes only, provided that it finds
    one. Outcomes that are built by edits and those that calls return are explicit. -/
structure Handler.IsExplicit {ω : Type} (handler : Handler ω) : Prop where
  keeps : handler.Keeps Outcome.Explicit
  answers : ∀ state answer, state.call.outcome.Explicit → (handler state).1 = .answered answer →
    answer.Explicit

/-- Whether the end of a handler is a verdict that failed without a message. -/
def HandlerEnd.IsMute (ending : HandlerEnd) : Prop :=
  ∃ verdict, ending = .answered (.verdict verdict) ∧ verdict.success = false ∧ ¬ verdict.Speaks

variable {ω : Type} {setting : Setting ω}

/-- Whatever is accepted leaves a failure or an output record, unless it is a mute verdict. -/
theorem Setting.Accepts.checks {step : String} {before after : Call} {kind : Kind}
    {answer : Answer} {result : Except EngineError Unit}
    (h : setting.Accepts step before kind answer result after) (hresult : result = .ok ())
    (hkind : kind.Checks) (hfilled : before.outcome.Filled)
    (hexplicit : answer.Explicit) :
    after.outcome.isFailure = true
      ∨ (∃ output, after.context = before.context.recordOutput step output)
      ∨ kind = .validate ∧ (HandlerEnd.answered answer).IsMute := by
  cases h with
  | rejected hrejected => exact nomatch hresult
  | ignored hvalidate hoperation hoperations hcondition =>
    rcases hkind with rfl | rfl | rfl
    · exact absurd rfl hvalidate
    · exact absurd rfl hoperation
    · exact absurd rfl hoperations
  | finished htruthy => exact (hkind.elim nofun (Or.elim · nofun nofun))
  | passed hsuccess => exact Or.inr (Or.inl ⟨_, rfl⟩)
  | failed hfailed =>
    exact Or.inl (Outcome.isFailure_mergeFailures hfilled hexplicit hfailed)
  | verdictPassed hsuccess => exact Or.inr (Or.inl ⟨_, rfl⟩)
  | @verdictFailed verdict hfailed =>
    -- unlike those of an outcome, the messages of a verdict may all be `null`
    by_cases hspeaks : verdict.Speaks
    · exact Or.inl ((Outcome.isFailure_addErrorLists_iff hfilled _).2 (Or.inr hspeaks))
    · exact Or.inr (Or.inr ⟨rfl, verdict, rfl, hfailed, hspeaks⟩)
  | operationPassed hsuccess => exact Or.inr (Or.inl ⟨_, rfl⟩)
  | @operationFailed outcome hfailed =>
    have hinformed : (before.outcome.addInformation outcome.information).Filled := hfilled
    exact Or.inl (Outcome.isFailure_mergeFailures hinformed hexplicit hfailed)
  | operationsPassed hnone => exact Or.inr (Or.inl ⟨_, rfl⟩)
  | @operationsFailed outcomes hsome =>
    refine Or.inl (Outcome.isFailure_foldl_mergeFailures hfilled hsome fun other hother => ?_)
    obtain ⟨hlisted, hfailed⟩ := List.mem_filter.1 hother
    exact ⟨hexplicit other hlisted, hfailed⟩

/-- What a verdict that failed leaves behind: its messages, and no output record. -/
theorem Setting.Accepts.of_failed_verdict {step : String} {before after : Call} {verdict : Verdict}
    {result : Except EngineError Unit}
    (h : setting.Accepts step before .validate (.verdict verdict) result after)
    (hfailed : verdict.success = false) :
    after = before.mapOutcome (·.addErrorLists verdict.errors) := by
  cases h with
  | rejected hrejected => exact nomatch hrejected
  | ignored hvalidate hoperation hoperations hcondition => exact absurd rfl hvalidate
  | verdictPassed hsuccess => exact nomatch hfailed.symm.trans hsuccess
  | verdictFailed _ => rfl

/-- After its handler has returned, a step takes the answer or settles the fault. -/
theorem Stepped.of_returned {path : Path} {kind : Kind} {step : String} {handler : Handler ω}
    {before after : Call} {events : List Event} {result : Except EngineError Unit}
    (h : Stepped setting path kind step handler before events result after)
    {ending : HandlerEnd} {mid : Call} (hreturned : .returned path ending mid ∈ events) :
    handler.Leads (setting.tracedCall step before) ending mid
      ∧ ((∃ answer, ending = .answered answer
          ∧ setting.Accepts step mid kind answer result after)
        ∨ ∃ fault later, ending.result = .error fault
          ∧ Settled setting step fault mid later result after) := by
  cases h with
  | skipped hbackend hmeets hevents => exact (hevents _ hreturned).elim
  | answered hopening hclosing hhandler hanswer haccepts =>
    simp only [List.mem_append, List.mem_cons, reduceCtorEq, false_or] at hreturned
    rcases hreturned with hreturned | hreturned | hreturned
    · exact (hopening _ hreturned).elim
    · obtain ⟨-, rfl, rfl⟩ := Event.returned.inj hreturned
      exact ⟨hhandler, Or.inl ⟨_, HandlerEnd.eq_answered hanswer, haccepts⟩⟩
    · exact (hclosing _ hreturned).elim
  | faulted hopening hclosing hhandler hfault hsettled =>
    simp only [List.mem_append, List.mem_cons, reduceCtorEq, false_or] at hreturned
    rcases hreturned with hreturned | hreturned | hreturned | hreturned
    · exact (hopening _ hreturned).elim
    · obtain ⟨-, rfl, rfl⟩ := Event.returned.inj hreturned
      exact ⟨hhandler, Or.inr ⟨_, _, hfault, hsettled⟩⟩
    · exact (hclosing _ hreturned).elim
    · obtain ⟨recorded, hrecorded⟩ := hsettled.eq_recorded hreturned
      exact nomatch hrecorded

/-- After a step that is checked, the outcome is a failure or the output of the step is recorded,
    unless the step answered with a mute verdict. -/
theorem Stepped.checks {path : Path} {kind : Kind} {step : String} {handler : Handler ω}
    {before after : Call} {events : List Event} {result : Except EngineError Unit}
    (h : Stepped setting path kind step handler before events result after)
    (hresult : result = .ok ()) (hkind : kind.Checks) (hhandler : handler.IsExplicit)
    (hbefore : before.outcome.Explicit) {ending : HandlerEnd} {mid : Call}
    (hreturned : .returned path ending mid ∈ events) :
    after.outcome.isFailure = true
      ∨ (∃ output, after.context = mid.context.recordOutput step output)
      ∨ kind = .validate ∧ ending.IsMute := by
  obtain ⟨hleads, ⟨answer, rfl, haccepts⟩ | ⟨fault, later, hfault, hsettled⟩⟩ :=
    h.of_returned hreturned
  · have htraced := setting.keeps_tracedCall Outcome.stable_explicit step hbefore
    refine haccepts.checks hresult hkind (hleads.keeps hhandler.keeps htraced).filled ?_
    obtain ⟨world, world', hrun⟩ := hleads
    exact hhandler.answers _ _ htraced (congrArg Prod.fst hrun)
  · cases hsettled with
    | raised hauthoring => exact nomatch hresult
    | recorded hauthoring => exact Or.inl (Outcome.isFailure_addException _ _ _ _)

/-- A verdict that failed leaves its messages behind, and no output record. -/
theorem Stepped.of_failed_verdict {path : Path} {step : String} {handler : Handler ω}
    {before after : Call} {events : List Event} {result : Except EngineError Unit}
    (h : Stepped setting path .validate step handler before events result after)
    {verdict : Verdict} {mid : Call}
    (hreturned : .returned path (.answered (.verdict verdict)) mid ∈ events)
    (hfailed : verdict.success = false) :
    after = mid.mapOutcome (·.addErrorLists verdict.errors) := by
  obtain ⟨-, ⟨answer, hanswer, haccepts⟩ | ⟨fault, later, hfault, -⟩⟩ := h.of_returned hreturned
  · obtain rfl := HandlerEnd.answered.inj hanswer
    exact haccepts.of_failed_verdict hfailed
  · exact nomatch hfault

namespace Setting

/-- No checking step is silent but for mute verdicts. If a handler has returned in a step that is
    run as a `validate`, `operation` or `operations` step and no error is raised, the outcome is a
    failure then or the step has recorded its output, unless the step is run as a `validate` step
    and the handler answered with a verdict that failed without a message. A failure stops the list
    around the step and rolls back the transaction around that. A validation that has found errors
    leaves a failure, where there was none before, if and only if one of the messages that it found
    is not `null`. -/
theorem checked_step_fails_or_records (setting : Setting ω) {kind inherited : Kind}
    (hkind : (Scope.leafKind kind inherited).Checks) (step : String) {handler : Handler ω}
    (hhandler : handler.IsExplicit) (path : Path) (state : State (Logged ω))
    (hstate : state.call.outcome.Explicit) :
    let ran := setting.followInside (.leaf kind step handler) path inherited state
    ∃ events, ran.2.world.log = state.world.log ++ events
      ∧ ∀ ending mid, .returned path ending mid ∈ events → ran.1 = .ok () →
        (ran.2.call.outcome.isFailure = true
          ∨ (∃ output, ran.2.call.context = mid.context.recordOutput step output)
          ∨ Scope.leafKind kind inherited = .validate ∧ ending.IsMute)
        ∧ (ran.2.call.outcome.isFailure = true →
          (∀ leaf, stopsAt ⟨.finishedOrFailed, leaf⟩ ran.2 = true)
          ∧ blockAnswer ran.1 ran.2.call.outcome = .error Abort.rollback)
        ∧ ∀ (values : Entries Json) (steps : List Validation.Step),
          Scope.leafKind kind inherited = .validate →
          ending = .answered (.verdict (Validation.built values steps).verdict) →
          (Validation.built values steps).isSuccess = false →
            ran.2.call.context = mid.context
            ∧ (ran.2.call.outcome.isFailure = true ↔ mid.outcome.isFailure = true
              ∨ ∃ error ∈ steps.filterMap (Validation.Step.found? values),
                error.2.isNull = false) := by
  intro ran
  obtain ⟨events, hlog, hcourse⟩ :=
    setting.takes_followInside (.leaf kind step handler) path inherited state
  refine ⟨events, hlog, fun ending mid hreturned hok => ?_⟩
  cases hcourse with
  | leaf hstepped =>
    refine ⟨hstepped.checks hok hkind hhandler hstate hreturned, fun hfailed => ⟨?_, ?_⟩, ?_⟩
    · intro leaf
      rw [stopsAt, hfailed, StopRule.stops, Bool.or_true]
    · rw [hok, blockAnswer, hfailed]
      rfl
    · rintro values steps hvalidate rfl hfailed
      rw [hvalidate] at hstepped
      have hafter := hstepped.of_failed_verdict hreturned hfailed
      have hmid := (hstepped.of_returned hreturned).1.keeps hhandler.keeps
        (setting.keeps_tracedCall Outcome.stable_explicit step hstate)
      rw [← Validation.speaks_built_iff]
      have hcall : ran.2.call = _ := hafter
      rw [hcall]
      exact ⟨rfl, Outcome.isFailure_addErrorLists_iff hmid.filled _⟩

/-- A step that answers with the verdict of a validation in which one error was found. -/
def finding (message : Json) : Handler Unit := fun state =>
  (.answered (.verdict (Validation.built [] [.error "age" message]).verdict), state)

/-- A message that is not `null` leaves a failure. -/
theorem finding_text_fails :
    (Scope.leafKind .validate .step).Checks ∧ (finding (.string "missing")).IsExplicit
      ∧ (Call.start {}).outcome.Explicit
      ∧ (direct.followInside (.leaf .validate "check" (finding (.string "missing"))) [0] .step
        ⟨Call.start {}, ⟨(), []⟩⟩).2.call.outcome.isFailure = true := by
  have hkind : (Scope.leafKind .validate .step).Checks := Or.inl rfl
  have hhandler : (finding (.string "missing")).IsExplicit := by
    refine ⟨fun _ hstate => hstate, fun state answer _ hanswer => ?_⟩
    obtain rfl := HandlerEnd.answered.inj hanswer
    trivial
  have hstart : (Call.start {}).outcome.Explicit := Outcome.explicit_withOutput .null
  refine ⟨hkind, hhandler, hstart, ?_⟩
  obtain ⟨events, hlog, hchecked⟩ := checked_step_fails_or_records direct hkind "check" hhandler
    [0] ⟨Call.start {}, ⟨(), []⟩⟩ hstart
  have hreturned : ∃ mid, .returned [0] (finding (.string "missing") ⟨{}, ()⟩).1 mid ∈ events := by
    rw [← List.nil_append events, ← hlog]
    exact ⟨_, .tail _ (.head _)⟩
  obtain ⟨mid, hmid⟩ := hreturned
  obtain ⟨-, -, hvalidation⟩ := hchecked _ mid hmid rfl
  refine (hvalidation [] [.error "age" (.string "missing")] rfl rfl rfl).2.2 (Or.inr ?_)
  exact ⟨_, List.mem_cons_self, rfl⟩

/-- A validation that has failed with nothing but the message `null` goes unnoticed: the outcome is
    no failure, the step has no output record, and the list goes on. -/
theorem finding_null_unnoticed :
    let ran := direct.followInside (.leaf .validate "check" (finding .null)) [0] .step
      ⟨Call.start {}, ⟨(), []⟩⟩
    (Validation.built [] [.error "age" .null]).isSuccess = false
      ∧ (∃ call, .entered [0] call ∈ ran.2.world.log) ∧ ran.1 = .ok ()
      ∧ ran.2.call.outcome.isFailure = false ∧ ran.2.call.context.outputOf "check" = none
      ∧ stopsAt .root ran.2 = false :=
  ⟨rfl, ⟨_, .head _⟩, rfl, rfl, rfl, rfl⟩

end Setting

end OperationPipeline

import OperationPipeline.Proofs.CourseLaws

set_option autoImplicit false

/-! # How faults are recorded

A fault that is no authoring error is recorded: one message is appended to the exceptions of the
step, and the fault is handed to the reporter (`Setting.Records`). What is recorded is the fault as
it was raised, with one exception: the error that asking a failed outcome for its output raises is
looked for below all contexts, and if it is found there it is recorded without them
(`Fault.recovered_of_contexts`). The same goes for what a transaction backend raises. -/

namespace OperationPipeline

/-! ## What is left of a fault -/

namespace Fault

theorem eq_outputOnFailure {fault : Fault} {error : EngineError} (h : fault.error? = some error)
    (hauthoring : fault.authoring? = none) : error = .outputOnFailure := by
  refine (EngineError.isAuthoring_eq_false_iff error).1 ?_
  cases hkind : error.isAuthoring with
  | false => rfl
  | true =>
    rw [authoring?, h] at hauthoring
    exact nomatch (if_pos hkind).symm.trans hauthoring

/-- An engine error that stands alone, and every fault without one, is recorded as it is. -/
theorem recovered_of_bare {fault : Fault} (h : fault.error? = none ∨ fault.contexts = []) :
    fault.recovered = fault := by
  obtain ⟨cause, contexts⟩ := fault
  cases cause with
  | text message => rfl
  | engine error =>
    obtain rfl := h.resolve_left nofun
    rfl

/-- An engine error that is no authoring error loses its contexts, and with them part of its
    chain. -/
theorem recovered_of_contexts {fault : Fault} (hauthoring : fault.authoring? = none)
    (herror : fault.error? ≠ none) (hcontexts : fault.contexts ≠ []) :
    fault.recovered = ofError .outputOnFailure ∧ fault.recovered.chain ≠ fault.chain := by
  obtain ⟨error, hsome⟩ := Option.ne_none_iff_exists'.1 herror
  obtain rfl := eq_outputOnFailure hsome hauthoring
  have hrecovered : fault.recovered = ofError .outputOnFailure := by
    rw [recovered, hsome]
  -- without its contexts the chain is shorter
  refine ⟨hrecovered, fun hchain => hcontexts ?_⟩
  have hlength := congrArg List.length hchain
  rw [hrecovered, chain, chain, Chain.texts, Chain.texts, List.length_append, List.length_append]
    at hlength
  exact List.eq_nil_of_length_eq_zero (Nat.add_right_cancel hlength).symm

end Fault

/-! ## Records -/

variable {ω : Type}

namespace Setting

/-- Whether two states differ in that a fault was recorded for a step in between: its message is
    appended to those under the qualified name of the step, it has been handed to the reporter, and
    nothing else has happened. -/
structure Records (setting : Setting ω) (step : String) (fault : Fault) (before after : State ω) :
    Prop where
  appended : after.call.outcome.exceptions.at? (Outcome.qualified setting.name step)
    = some ((before.call.outcome.exceptions.at? (Outcome.qualified setting.name step)).getD []
      ++ [fault.message])
  kept : ∀ key, key ≠ Outcome.qualified setting.name step →
    after.call.outcome.exceptions.at? key = before.call.outcome.exceptions.at? key
  alone : after.call = { before.call with
    outcome := { before.call.outcome with exceptions := after.call.outcome.exceptions } }
  reported : after.world = match setting.config.reporter with
    | none => before.world
    | some reporter => (reporter fault before.world).2

variable (setting : Setting ω)

theorem records_recordFault (step : String) (fault : Fault) (state : State ω) :
    setting.Records step fault state (setting.recordFault step fault state) where
  appended := (Entries.at?_put _ _ _ _).trans (if_pos rfl)
  kept := fun _ hkey => (Entries.at?_put _ _ _ _).trans (if_neg hkey.symm)
  alone := rfl
  reported := rfl

/-- A step whose handler has faulted goes on without an answer. -/
theorem callStep_of_fault {step : String} {handler : Handler ω} {state mid : State ω}
    {ending : HandlerEnd} {fault : Fault}
    (hentered : setting.instrumented ("#" ++ step) .step
      (fun state => handler (setting.traced step state)) state = (some ending, mid))
    (hfault : ending.result = .error fault) (hauthoring : fault.authoring? = none) :
    setting.callStep step handler state
      = (.ok none, setting.recordFault step fault.recovered mid) := by
  simp only [callStep, hentered, hfault, setting.settle_recorded step fault mid hauthoring]

/-- A transaction goes on after a fault of its backend. -/
theorem runTransaction_of_fault {backend : TransactionBackend ω}
    (hbackend : setting.config.transactionBackend = some backend)
    {body : State ω → Except EngineError Unit × State ω} {state : State ω} {abort : Abort}
    {fault : Fault} {call : Call} {world : ω}
    (hended : (backend setting.config.transactionMethod setting.config.transactionOptions
      state.world).drive (transactionBlock body) state.call = (.error abort, call, world))
    (hfault : abort.fault? = some fault) (hauthoring : fault.authoring? = none) :
    setting.runTransaction body state
      = (.ok (), setting.recordFault transactionStep fault.recovered ⟨call, world⟩) := by
  rw [runTransaction, hbackend]
  dsimp only
  rw [hended]
  dsimp only
  rw [hfault]
  exact setting.settle_recorded transactionStep fault ⟨call, world⟩ hauthoring

/-- A fault that is no authoring error is recorded once, whatever the kind of the step: the fault of
    a handler under the name of its step, that of a transaction backend under the name of
    transactions. It is recorded as it was raised unless it is an engine error in contexts, of which
    only the error is recorded. -/
theorem records_faults_once :
    (∀ (kind : Kind) (step : String) (handler : Handler ω) (state mid : State ω)
        (ending : HandlerEnd) (fault : Fault),
      setting.instrumented ("#" ++ step) .step (fun state => handler (setting.traced step state))
        state = (some ending, mid) →
      ending.result = .error fault → fault.authoring? = none →
        ∃ after, setting.callStep step handler state = (.ok none, after)
          ∧ setting.walkLeaf kind step handler state = (.ok (), after)
          ∧ setting.Records step fault.recovered mid after)
      ∧ (∀ (backend : TransactionBackend ω) (body : State ω → Except EngineError Unit × State ω)
          (state : State ω) (abort : Abort) (fault : Fault) (call : Call) (world : ω),
        setting.config.transactionBackend = some backend →
        (backend setting.config.transactionMethod setting.config.transactionOptions
          state.world).drive (transactionBlock body) state.call = (.error abort, call, world) →
        abort.fault? = some fault → fault.authoring? = none →
          ∃ after, setting.runTransaction body state = (.ok (), after)
            ∧ setting.Records transactionStep fault.recovered ⟨call, world⟩ after)
      ∧ ∀ fault : Fault, fault.authoring? = none →
        (fault.error? = none ∨ fault.contexts = [] → fault.recovered = fault)
          ∧ (fault.error? ≠ none → fault.contexts ≠ [] →
            fault.recovered = Fault.ofError .outputOnFailure
              ∧ fault.recovered.chain ≠ fault.chain) := by
  refine ⟨?_, ?_, fun fault hauthoring => ⟨Fault.recovered_of_bare,
    Fault.recovered_of_contexts hauthoring⟩⟩
  · intro kind step handler state mid ending fault hentered hfault hauthoring
    have hcall := setting.callStep_of_fault hentered hfault hauthoring
    refine ⟨_, hcall, ?_, setting.records_recordFault step fault.recovered mid⟩
    rw [walkLeaf, withAnswer, hcall]
  · intro backend body state abort fault call world hbackend hended hfault hauthoring
    exact ⟨_, setting.runTransaction_of_fault hbackend hended hfault hauthoring,
      setting.records_recordFault transactionStep fault.recovered ⟨call, world⟩⟩

/-- A setting whose world is the list of the faults that were reported. -/
def reporting : Setting (List Fault) where
  config := { reporter := some fun fault reported => (.returned, reported ++ [fault]) }
  name := none
  typeName := "Operation"
  clock := fun _ _ => ⟨default, none⟩

/-- The same setting with a transaction backend that fails without running its block. -/
def disconnected (fault : Fault) : Setting (List Fault) :=
  { reporting with
    config := { reporting.config with
      transactionBackend := some fun _ _ reported =>
        .finish (.error (Abort.ofFault fault)) reported } }

/-- A handler that raises a fault. -/
def raising (fault : Fault) : Handler (List Fault) := fun state => (.faulted fault, state)

/-- A text in a context is reported as it is, be it raised by a handler or by a backend. -/
theorem reports_text_in_context :
    let fault : Fault := (Fault.ofText "no such file").wrap "while reading"
    let start : State (List Fault) := ⟨Call.start {}, []⟩
    fault.authoring? = none
      ∧ (reporting.walkLeaf .validate "read" (raising fault) start).2.world = [fault]
      ∧ ((disconnected fault).runTransaction (fun state => (.ok (), state)) start).2.world
        = [fault] := by
  intro fault start
  obtain ⟨hsteps, -, hfaults⟩ := reporting.records_faults_once
  obtain ⟨-, htransactions, -⟩ := (disconnected fault).records_faults_once
  obtain ⟨hbare, -⟩ := hfaults fault rfl
  obtain ⟨_, -, hwalk, hrecords⟩ :=
    hsteps .validate "read" (raising fault) start _ _ fault rfl rfl rfl
  obtain ⟨_, htransaction, hrecords'⟩ :=
    htransactions _ (fun state => (.ok (), state)) start _ fault _ _ rfl rfl rfl rfl
  refine ⟨rfl, ?_, ?_⟩
  · rw [hwalk, hrecords.reported, hbare (Or.inl rfl)]
    rfl
  · rw [htransaction, hrecords'.reported, hbare (Or.inl rfl)]
    rfl

/-- The error that asking a failed outcome for its output raises is recorded and reported without
    the context that the handler has put around it. -/
theorem drops_context_of_output_error :
    let fault : Fault := (Fault.ofError .outputOnFailure).wrap "while summing"
    let ran := reporting.walkLeaf .step "sum" (raising fault) ⟨Call.start {}, []⟩
    fault.authoring? = none ∧ fault.message = "while summing"
      ∧ ran.2.call.outcome.exceptions.at? "sum" = some ["Cannot retrieve output from a Failure."]
      ∧ fault.chain = ["while summing", "Cannot retrieve output from a Failure."]
      ∧ ran.2.world.map Fault.chain = [["Cannot retrieve output from a Failure."]] :=
  ⟨rfl, rfl, by decide, rfl, rfl⟩

end Setting

end OperationPipeline

import OperationPipeline.Proofs.Lockstep
import OperationPipeline.Proofs.Tracing

set_option autoImplicit false

/-! # Production mode

In production mode steps are not traced, and that is all the mode is for: whoever does not look at
the traces of outcomes cannot tell the two modes apart (`Setting.production_only_drops_trace`), and
a call in production mode ends without a trace. -/

namespace OperationPipeline

variable {ω ν : Type}

/-- The setting in the given mode. -/
def Setting.inMode (setting : Setting ω) (mode : Mode) : Setting ω :=
  { setting with config := { setting.config with mode } }

/-- The vantage point of those who do not look at traces. -/
def Vantage.untraced (view : ω → ν) (value : Json → Json) : Vantage ω ν where
  world := view
  value := value
  trace := false
  instrumentation := true

/-! ## Collaborators -/

/-- Whether the collaborators of a setting go by nothing of the world but what is seen of it, and
    neither do durations as far as they are seen. -/
structure Setting.GoesBy (setting : Setting ω) (view : ω → ν) (value : Json → Json) : Prop where
  transaction : ∀ backend, setting.config.transactionBackend = some backend →
    backend.Respects view
  instrumentation : ∀ backend, setting.config.instrumentationBackend = some backend →
    backend.Respects view
  reporter : ∀ reporter, setting.config.reporter = some reporter → ∀ fault world world',
    view world = view world' → view (reporter fault world).2 = view (reporter fault world').2
  clock : ∀ before before' after after', view before = view before' → view after = view after' →
    value (setting.clock before after).toJson = value (setting.clock before' after').toJson

namespace Setting

/-- Whoever sees the whole world sees all that any collaborators go by. -/
theorem goesBy_id (setting : Setting ω) (value : Json → Json) : setting.GoesBy id value where
  transaction backend _ method options world world' hworld := by
    obtain rfl : world = world' := hworld
    exact Interaction.matches_id _
  instrumentation backend _ method traceName options world world' hworld := by
    obtain rfl : world = world' := hworld
    exact Interaction.matches_id _
  reporter reporter _ fault world world' hworld := by
    obtain rfl : world = world' := hworld
    rfl
  clock before before' after after' hbefore hafter := by
    obtain rfl : before = before' := hbefore
    obtain rfl : after = after' := hafter
    rfl

/-- If the collaborators of a setting go by what is seen only, it runs in two modes in parallel,
    provided that the modes are told apart by nothing that is seen. -/
theorem GoesBy.parallel {see : Vantage ω ν} {setting : Setting ω}
    (h : setting.GoesBy see.world see.value) {mode mode' : Mode}
    (hsame : see.setting (setting.inMode mode) = see.setting (setting.inMode mode')) :
    Parallel see.logged (setting.inMode mode).logged (setting.inMode mode').logged where
  toMatches := Matches.logged
    { same := hsame
      reports := fun fault world world' hworld => by
        rw [report, report, inMode, inMode]
        dsimp only
        cases hreporter : setting.config.reporter with
        | none => exact hworld
        | some reporter => exact h.reporter reporter hreporter fault world world' hworld
      timings := h.clock _ _ _ _
      backend := rfl
      method := rfl
      options := rfl
      respects := h.transaction }
  instrumented view traceName level work work' hwork := by
    rw [see.sight_logged] at hwork ⊢
    exact agree_instrumented_logged rfl rfl rfl h.instrumentation view traceName hwork

/-- In either mode, a setting is the same as far as is seen without traces. -/
theorem parallel_inMode {see : Vantage ω ν} (hsee : see.trace = false) {setting : Setting ω}
    (h : setting.GoesBy see.world see.value) (mode mode' : Mode) :
    Parallel see.logged (setting.inMode mode).logged (setting.inMode mode').logged :=
  h.parallel (by simp only [Vantage.setting, hsee]; rfl)

/-! ## No trace -/

theorem nest_of_production {setting : Setting ω} (h : setting.config.tracesSteps = false)
    (step : String) (entry : TraceEntry) (outcome : Outcome) :
    setting.nest step entry outcome = outcome := by
  rw [nest, h]
  rfl

/-- While steps are not traced, taking an answer leaves the trace alone. -/
theorem Accepts.trace_of_production {setting : Setting ω}
    (hproduction : setting.config.tracesSteps = false) {step : String} {before after : Call}
    {kind : Kind} {answer : Answer} {result : Except EngineError Unit}
    (h : setting.Accepts step before kind answer result after) :
    after.outcome.trace = before.outcome.trace := by
  have hnest : ∀ entry outcome, (setting.nest step entry outcome).trace = outcome.trace :=
    fun entry outcome => congrArg Outcome.trace (nest_of_production hproduction step entry outcome)
  have hmerge : ∀ outcome other, (Outcome.mergeFailures outcome other).trace = outcome.trace :=
    Outcome.view_mergeFailures Outcome.trace fun _ _ _ => rfl
  cases h with
  | failed hfailure => exact hmerge _ _
  | verdictFailed hfailure => exact Outcome.view_addErrors Outcome.trace (fun _ _ => rfl) _ _
  | operationPassed hsuccess => exact hnest _ _
  | operationFailed hfailure => exact hmerge _ _
  | operationsPassed hnone => exact hnest _ _
  | operationsFailed hsome =>
    exact Outcome.view_foldl_mergeFailures Outcome.trace (fun _ _ _ => rfl) _ _
  | _ => rfl

/-- While steps are not traced and handlers leave the traces of their own outcomes alone, nothing
    touches the trace. -/
theorem threads_untraced {setting : Setting ω} {root : Instruction (Handler ω)}
    (hproduction : setting.config.tracesSteps = false)
    (hspares : ∀ leaf ∈ root.leaves, leaf.2.2.Spares Outcome.trace) :
    Threads setting root fun before _ after => after.outcome.trace = before.outcome.trace := by
  have hmid : ∀ {path kind step handler before ending mid},
      root.at? path = some (.leaf kind step handler) →
      handler.Leads (setting.tracedCall step before) ending mid →
        mid.outcome.trace = before.outcome.trace := by
    intro path kind step handler before ending mid hat hhandler
    have hspared := Instruction.view_of_leads hspares hat hhandler
    rwa [tracedCall, hproduction] at hspared
  constructor
  case nil => exact fun call => rfl
  case append => exact fun h hlater => hlater.trans h
  case passing => exact fun event hevent call => rfl
  case timed => exact fun call label timing => rfl
  case settled =>
    intro step fault before after events result hsettled
    cases hsettled <;> rfl
  case answered =>
    intro path kind step handler before mid after ending answer result hat hhandler hanswer haccepts
    exact (haccepts.trace_of_production hproduction).trans (hmid hat hhandler)
  case faulted => exact fun hat hhandler hfault => hmid hat hhandler

/-! ## Whole calls -/

/-- Production mode only drops the trace. Take handlers that neither read the traces of their own
    outcomes nor append to them. As far as is seen of the world (`view`, which may be all of it) and
    of the information in outcomes (`value`, which may leave out the durations of benchmarks), a
    call in development mode and one in production mode end in the same way, with outcomes that are
    the same but for the trace, and the same happens during both: handlers are entered and return in
    the same order and in the same states, all backends are called and answered in the same way, and
    the same faults are recorded and reported. In production mode the outcome has no trace. -/
theorem production_only_drops_trace (setting : Setting ω) (view : ω → ν) (value : Json → Json)
    (hcollaborators : setting.GoesBy view value) {instructions : List (Instruction (Handler ω))}
    (hreads : ∀ leaf ∈ Instruction.leavesAll instructions,
      leaf.2.2.DependsOn (.untraced view value))
    (happends : ∀ leaf ∈ Instruction.leavesAll instructions, leaf.2.2.Spares Outcome.trace)
    (arguments : Arguments) {world world' : ω} (hworld : view world = view world') :
    let see := Vantage.untraced view value
    let development := setting.inMode .development
    let production := setting.inMode .production
    (development.perform instructions arguments world).1.map see.outcome
        = (production.perform instructions arguments world').1.map see.outcome
      ∧ view (development.perform instructions arguments world).2
        = view (production.perform instructions arguments world').2
      ∧ see.events (development.transcript instructions arguments world)
        = see.events (production.transcript instructions arguments world')
      ∧ ∀ outcome, (production.perform instructions arguments world').1 = .ok outcome →
        outcome.trace = [] := by
  intro see development production
  have hparallel : Parallel see.logged development.logged production.logged :=
    parallel_inMode rfl hcollaborators .development .production
  obtain ⟨hended, hworlds, hevents⟩ :=
    hparallel.perform_alike rfl hreads arguments hworld
  refine ⟨hended, hworlds, hevents, fun outcome hperform => ?_⟩
  obtain ⟨-, -, rfl⟩ := of_perform_eq_ok hperform
  have hcourse := production.takes_followCall instructions arguments world'
  exact hcourse.threads (threads_untraced rfl happends)

/-- The calls of `callsInTurn` leave nested traces in development mode, and nothing but these is
    missing in production mode. -/
theorem production_drops_nested_traces :
    let see : Vantage Unit Unit := .untraced id id
    direct.GoesBy id id
      ∧ (∀ leaf ∈ Instruction.leavesAll callsInTurn, leaf.2.2.DependsOn see)
      ∧ (∀ leaf ∈ Instruction.leavesAll callsInTurn, leaf.2.2.Spares Outcome.trace)
      ∧ (((direct.inMode .development).perform callsInTurn {} ()).1.map see.outcome
        = ((direct.inMode .production).perform callsInTurn {} ()).1.map see.outcome)
      ∧ ∃ development production,
        ((direct.inMode .development).perform callsInTurn {} ()).1 = .ok development
          ∧ ((direct.inMode .production).perform callsInTurn {} ()).1 = .ok production
          ∧ development.trace.length = 3 ∧ production.trace = [] := by
  intro see
  have hleaves : ∀ property : Handler Unit → Prop,
      (∀ ending : HandlerEnd, property fun state => (ending, state)) →
        ∀ leaf ∈ Instruction.leavesAll callsInTurn, property leaf.2.2 := by
    intro property hproperty leaf hleaf
    simp only [callsInTurn, Instruction.leavesAll, Instruction.leaves, List.cons_append,
      List.nil_append, List.append_nil, List.mem_cons, List.not_mem_nil, or_false] at hleaf
    rcases hleaf with rfl | rfl | rfl <;> exact hproperty _
  have hreads : ∀ leaf ∈ Instruction.leavesAll callsInTurn, leaf.2.2.DependsOn see :=
    hleaves (·.DependsOn see) fun _ _ _ hstate => ⟨rfl, hstate⟩
  have happends : ∀ leaf ∈ Instruction.leavesAll callsInTurn, leaf.2.2.Spares Outcome.trace :=
    hleaves (·.Spares Outcome.trace) fun _ _ => rfl
  obtain ⟨hended, -, -, htrace⟩ := production_only_drops_trace direct id id
    (direct.goesBy_id id) hreads happends {} (rfl : (id () : Unit) = id ())
  exact ⟨direct.goesBy_id id, hreads, happends, hended, _, _, rfl, rfl, rfl, htrace _ rfl⟩

end Setting

end OperationPipeline

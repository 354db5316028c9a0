import OperationPipeline.Proofs.Contract
import OperationPipeline.Proofs.Drift

set_option autoImplicit false

/-! # Work that looks alike

What is seen of a run (`Sight`) is fixed by what is seen of the world, of calls, of answers and of
events. Whether a call is finished and whether it has failed is always seen, and so is when work
begins and ends and when handlers are entered and return. Two pieces of work look alike if they make
states that look alike look alike again (`Sight.Agree`).

Two settings run in step if their collaborators and the call itself do the same as far as is seen
(`Setting.InStep`); then steps look alike in them (`Setting.InStep.agree_walkLeaf`), if their
handlers depend on nothing but what is seen. The other lemmas say the same of each way in which the
walk puts work together. -/

namespace OperationPipeline

variable {ω ν : Type}

/-- The end of a handler with another answer. -/
def HandlerEnd.mapAnswer (f : Answer → Answer) : HandlerEnd → HandlerEnd
  | .answered answer => .answered (f answer)
  | .faulted fault => .faulted fault
  | .panicked panic => .panicked panic

theorem HandlerEnd.result_mapAnswer (f : Answer → Answer) (ending : HandlerEnd) :
    (ending.mapAnswer f).result = ending.result.map f := by
  cases ending <;> rfl

/-! ## What is seen -/

/-- What is seen of a run. -/
structure Sight (ω ν : Type) where
  world : ω → ν
  call : Call → Call
  answer : Answer → Answer
  /-- What is seen of an event, if it is seen at all. -/
  event : Event → Option Event
  finished_call (running : Call) : (call running).finished = running.finished
  isFailure_call (running : Call) :
    (call running).outcome.isFailure = running.outcome.isFailure
  event_began (path : Path) (running : Call) :
    event (.began path running) = some (.began path (call running))
  event_ended (path : Path) (result : Except EngineError Unit) (running : Call) :
    event (.ended path result running) = some (.ended path result (call running))
  event_entered (path : Path) (running : Call) :
    event (.entered path running) = some (.entered path (call running))
  event_returned (path : Path) (ending : HandlerEnd) (running : Call) :
    event (.returned path ending running)
      = some (.returned path (ending.mapAnswer answer) (call running))

namespace Sight

variable (see : Sight ω ν)

/-- What is seen of a call and the world around it. -/
def state (state : State ω) : State ν :=
  ⟨see.call state.call, see.world state.world⟩

/-- What is seen of the end of a handler. -/
def ending (ending : HandlerEnd) : HandlerEnd :=
  ending.mapAnswer see.answer

/-- What is seen of what happens. -/
def events (events : List Event) : List Event :=
  events.filterMap see.event

/-- The same sight of a world with a log. -/
def logged : Sight (Logged ω) (Logged ν) where
  world := fun world => ⟨see.world world.world, see.events world.log⟩
  call := see.call
  answer := see.answer
  event := see.event
  finished_call := see.finished_call
  isFailure_call := see.isFailure_call
  event_began := see.event_began
  event_ended := see.event_ended
  event_entered := see.event_entered
  event_returned := see.event_returned

/-- Whether two pieces of work do the same as far as is seen, where `view` is what is seen of their
    answers. -/
def Agree {α β : Type} (view : α → β) (work work' : State ω → α × State ω) : Prop :=
  ∀ state state', see.state state = see.state state' →
    view (work state).1 = view (work' state').1
      ∧ see.state (work state).2 = see.state (work' state').2

theorem events_append (events later : List Event) :
    see.events (events ++ later) = see.events events ++ see.events later :=
  List.filterMap_append

end Sight

variable {see : Sight ω ν}

namespace Sight

theorem Agree.symm {α β : Type} {view : α → β} {work work' : State ω → α × State ω}
    (h : see.Agree view work work') : see.Agree view work' work := by
  intro state state' hstate
  obtain ⟨hanswer, hafter⟩ := h state' state hstate.symm
  exact ⟨hanswer.symm, hafter.symm⟩

/-- What looks alike looks alike after the same has been added as far as is seen. -/
theorem events_append_congr {events events' : List Event}
    (h : see.events events = see.events events') {later later' : List Event}
    (hlater : see.events later = see.events later') :
    see.events (events ++ later) = see.events (events' ++ later') := by
  rw [events_append, events_append, h, hlater]

theorem state_eq_iff {state state' : State ω} :
    see.state state = see.state state'
      ↔ see.call state.call = see.call state'.call
        ∧ see.world state.world = see.world state'.world := by
  simp [Sight.state]

theorem world_logged_eq_iff {world world' : Logged ω} :
    see.logged.world world = see.logged.world world'
      ↔ see.world world.world = see.world world'.world
        ∧ see.events world.log = see.events world'.log := by
  simp [Sight.logged]

theorem state_logged_eq_iff {state state' : State (Logged ω)} :
    see.logged.state state = see.logged.state state'
      ↔ see.state state.plain = see.state state'.plain
        ∧ see.events state.world.log = see.events state'.world.log := by
  rw [state_eq_iff, state_eq_iff, world_logged_eq_iff, and_assoc]
  rfl

/-- Calls that start in worlds that look alike start alike. -/
theorem state_start_eq {world world' : ω} (h : see.world world = see.world world')
    (arguments : Arguments) :
    see.logged.state ⟨Call.start arguments, ⟨world, []⟩⟩
      = see.logged.state ⟨Call.start arguments, ⟨world', []⟩⟩ :=
  state_logged_eq_iff.2 ⟨state_eq_iff.2 ⟨rfl, h⟩, rfl⟩

theorem finished_eq {call call' : Call} (h : see.call call = see.call call') :
    call.finished = call'.finished := by
  rw [← see.finished_call, h, see.finished_call]

theorem isFailure_eq {call call' : Call} (h : see.call call = see.call call') :
    call.outcome.isFailure = call'.outcome.isFailure := by
  rw [← see.isFailure_call, h, see.isFailure_call]

/-- A list stops in both of two states that look alike, or in neither. -/
theorem stopsAt_eq {state state' : State ω} (h : see.state state = see.state state')
    (scope : Scope) : Setting.stopsAt scope state = Setting.stopsAt scope state' := by
  have hcall := (state_eq_iff.1 h).1
  rw [Setting.stopsAt, Setting.stopsAt, finished_eq hcall, isFailure_eq hcall]

end Sight

/-! ## Interactions -/

/-- Whether two interactions do the same as far as is seen of the world, provided that their blocks
    do. -/
inductive Interaction.Matches {ω ν α β : Type} (view : ω → ν) :
    Interaction ω α β → Interaction ω α β → Prop where
  | finish (answer : β) {world world' : ω} (hworld : view world = view world') :
    Matches view (.finish answer world) (.finish answer world')
  | run {world world' : ω} {resume resume' : α → ω → Interaction ω α β}
      (hworld : view world = view world')
      (hresume : ∀ answer after after', view after = view after' →
        Matches view (resume answer after) (resume' answer after')) :
    Matches view (.run world resume) (.run world' resume')

/-- Whoever sees the whole world sees everything that an interaction goes by. -/
theorem Interaction.matches_id {α β : Type} (interaction : Interaction ω α β) :
    interaction.Matches id interaction := by
  induction interaction with
  | finish answer world => exact .finish answer rfl
  | run world resume ih =>
    refine .run rfl fun answer after after' hafter => ?_
    obtain rfl : after = after' := hafter
    exact ih answer after

/-- Interactions that match do the same with blocks that do the same. -/
theorem Interaction.Matches.drive {α β σ τ : Type} {view : ω → ν} {seen : σ → τ}
    {interaction interaction' : Interaction ω α β} (h : interaction.Matches view interaction')
    {block block' : σ → ω → α × σ × ω}
    (hblock : ∀ state state' world world', seen state = seen state' → view world = view world' →
      (block state world).1 = (block' state' world').1
        ∧ seen (block state world).2.1 = seen (block' state' world').2.1
        ∧ view (block state world).2.2 = view (block' state' world').2.2)
    {state state' : σ} (hstate : seen state = seen state') :
    (interaction.drive block state).1 = (interaction'.drive block' state').1
      ∧ seen (interaction.drive block state).2.1 = seen (interaction'.drive block' state').2.1
      ∧ view (interaction.drive block state).2.2
        = view (interaction'.drive block' state').2.2 := by
  induction h generalizing state state' with
  | finish answer hworld => exact ⟨rfl, hstate, hworld⟩
  | run hworld hresume ih =>
    obtain ⟨hanswer, hseen, hafter⟩ := hblock state state' _ _ hstate hworld
    rw [drive_run, drive_run, ← hanswer]
    exact ih _ _ _ hafter hseen

theorem Interaction.Matches.logged {α β : Type} {interaction interaction' : Interaction ω α β}
    (h : interaction.Matches see.world interaction') (note : α → Event) {log log' : List Event}
    (hlog : see.events log = see.events log') :
    (interaction.logged note log).Matches see.logged.world (interaction'.logged note log') := by
  induction h generalizing log log' with
  | finish answer hworld => exact .finish answer (Sight.world_logged_eq_iff.2 ⟨hworld, hlog⟩)
  | run hworld hresume ih =>
    refine .run (Sight.world_logged_eq_iff.2 ⟨hworld, hlog⟩) fun answer after after' hafter => ?_
    obtain ⟨hworlds, hlogs⟩ := Sight.world_logged_eq_iff.1 hafter
    exact ih answer _ _ hworlds (Sight.events_append_congr hlogs rfl)

theorem Interaction.meets_logged {α β : Type} {interaction : Interaction ω α β}
    {contract : List α → β → Prop} (h : interaction.Meets contract) (note : α → Event)
    (log : List Event) : (interaction.logged note log).Meets contract := by
  induction interaction generalizing contract log with
  | finish answer world => exact h
  | run world resume ih => exact fun answer world => ih answer world.world (h answer world.world) _

/-- Where the notes of an interaction are not seen, the log of what is noted is not seen either. -/
theorem Interaction.Drifts.logged_unseen {α β : Type} {interaction : Interaction ω α β}
    {world : Logged ω}
    (h : interaction.Drifts (fun before after => see.world after = see.world before) world.world)
    {opened : Event} (hopened : see.event opened = none) {note : α → Event}
    (hnote : ∀ answer, see.event (note answer) = none) :
    (interaction.logged note (world.log ++ [opened])).Drifts
      (fun before after => see.logged.world after = see.logged.world before) world := by
  have hunseen : ∀ (world : Logged ω) event, see.event event = none →
      see.logged.world ⟨world.world, world.log ++ [event]⟩ = see.logged.world world := by
    intro world event hevent
    refine Sight.world_logged_eq_iff.2 ⟨rfl, ?_⟩
    rw [Sight.events_append, Sight.events, Sight.events, List.filterMap_cons, hevent]
    exact List.append_nil _
  have htrans : ∀ {before mid after : Logged ω}, see.logged.world mid = see.logged.world before →
      see.logged.world after = see.logged.world mid →
        see.logged.world after = see.logged.world before := fun h hlater => hlater.trans h
  have hplayed := h.logged
    (fun before after => see.logged.world after = see.logged.world before) note
    (fun log hworld => congrArg (Logged.mk · (see.events log)) hworld)
    (fun answer world => hunseen world _ (hnote answer)) htrans (world.log ++ [opened])
  exact hplayed.from_earlier (hunseen world opened hopened) htrans

/-! ## Collaborators and handlers -/

/-- Whether a transaction backend goes by nothing of the world but what is seen of it. -/
def TransactionBackend.Respects (view : ω → ν) (backend : TransactionBackend ω) : Prop :=
  ∀ method options world world', view world = view world' →
    (backend method options world).Matches view (backend method options world')

/-- Whether an instrumentation backend goes by nothing of the world but what is seen of it. -/
def Instrumentation.Respects (view : ω → ν) (backend : Instrumentation ω) : Prop :=
  ∀ method traceName options world world', view world = view world' →
    (backend method traceName options world).Matches view (backend method traceName options world')

theorem TransactionBackend.Respects.logged {backend : TransactionBackend ω}
    (h : backend.Respects see.world) : backend.logged.Respects see.logged.world := by
  intro method options world world' hworld
  obtain ⟨hworlds, hlogs⟩ := Sight.world_logged_eq_iff.1 hworld
  exact (h method options _ _ hworlds).logged _ (Sight.events_append_congr hlogs rfl)

theorem Instrumentation.Respects.logged {backend : Instrumentation ω}
    (h : backend.Respects see.world) : backend.logged.Respects see.logged.world := by
  intro method traceName options world world' hworld
  obtain ⟨hworlds, hlogs⟩ := Sight.world_logged_eq_iff.1 hworld
  exact (h method traceName options _ _ hworlds).logged _ (Sight.events_append_congr hlogs rfl)

/-- The entry and the return of a handler look alike if what it does looks alike. -/
theorem Sight.Agree.logged_handler {handler handler' : Handler ω}
    (h : see.Agree see.ending handler handler') (path : Path) :
    see.logged.Agree see.logged.ending (handler.logged path) (handler'.logged path) := by
  intro state state' hstate
  obtain ⟨hplain, hlogs⟩ := Sight.state_logged_eq_iff.1 hstate
  obtain ⟨hending, hafter⟩ := h state.plain state'.plain hplain
  have hentered : see.call state.call = see.call state'.call :=
    (Sight.state_eq_iff.1 hplain).1
  have hreturned := (Sight.state_eq_iff.1 hafter).1
  refine ⟨hending, Sight.state_logged_eq_iff.2
    ⟨hafter, Sight.events_append_congr hlogs ?_⟩⟩
  rw [Sight.ending, Sight.ending] at hending
  simp only [Sight.events, List.filterMap_cons, see.event_entered, see.event_returned, hentered,
    hending, hreturned]

namespace Setting

/-! ## Instrumented work -/

/-- The block of an instrumentation does the same if the work in it does. -/
theorem agree_firstRun {α β : Type} {view : α → β} {work work' : State ω → α × State ω}
    (hwork : see.Agree view work work') (state state' : Option α × Call) (world world' : ω)
    (hstate : Prod.map (Option.map view) see.call state
      = Prod.map (Option.map view) see.call state')
    (hworld : see.world world = see.world world') :
    (firstRun work state world).1 = (firstRun work' state' world').1
      ∧ Prod.map (Option.map view) see.call (firstRun work state world).2.1
        = Prod.map (Option.map view) see.call (firstRun work' state' world').2.1
      ∧ see.world (firstRun work state world).2.2
        = see.world (firstRun work' state' world').2.2 := by
  obtain ⟨answer, call⟩ := state
  obtain ⟨answer', call'⟩ := state'
  obtain ⟨hanswer, hcall⟩ := Prod.mk.inj hstate
  cases answer with
  | some answer =>
    obtain ⟨answer', rfl, -⟩ := Option.map_eq_some_iff.1 hanswer.symm
    exact ⟨rfl, hstate, hworld⟩
  | none =>
    obtain rfl : answer' = none := Option.map_eq_none_iff.1 hanswer.symm
    obtain ⟨hresult, hafter⟩ :=
      hwork ⟨call, world⟩ ⟨call', world'⟩ (Sight.state_eq_iff.2 ⟨hcall, hworld⟩)
    obtain ⟨hcalls, hworlds⟩ := Sight.state_eq_iff.1 hafter
    exact ⟨rfl, Prod.ext (congrArg some hresult) hcalls, hworlds⟩

/-- With the same instrumentation, which goes by nothing but what is seen, instrumented work does
    the same if the work does. -/
theorem agree_instrumented {setting setting' : Setting ω} {level : TraceLevel}
    (hbackend : setting.backendAt level = setting'.backendAt level)
    (hmethod : setting.config.instrumentationMethod = setting'.config.instrumentationMethod)
    (hoptions : setting.config.instrumentationOptions = setting'.config.instrumentationOptions)
    (hrespects : ∀ backend, setting.backendAt level = some backend → backend.Respects see.world)
    {α β : Type} (view : α → β) (traceName : String) {work work' : State ω → α × State ω}
    (hwork : see.Agree view work work') :
    see.Agree (Option.map view) (setting.instrumented traceName level work)
      (setting'.instrumented traceName level work') := by
  intro state state' hstate
  simp only [instrumented, ← hbackend, ← hmethod, ← hoptions]
  cases hsome : setting.backendAt level with
  | none =>
    obtain ⟨hanswer, hafter⟩ := hwork state state' hstate
    exact ⟨congrArg some hanswer, hafter⟩
  | some backend =>
    obtain ⟨hcall, hworld⟩ := Sight.state_eq_iff.1 hstate
    have hmatches := hrespects backend hsome setting.config.instrumentationMethod traceName
      setting.config.instrumentationOptions state.world state'.world hworld
    have hstart : Prod.map (Option.map view) see.call (none, state.call)
        = Prod.map (Option.map view) see.call (none, state'.call) := Prod.ext rfl hcall
    obtain ⟨-, hended, hworlds⟩ := hmatches.drive (agree_firstRun hwork) hstart
    obtain ⟨hanswer, hcalls⟩ := Prod.mk.inj hended
    exact ⟨hanswer, Sight.state_eq_iff.2 ⟨hcalls, hworlds⟩⟩

/-- In a world with a log, instrumented work does the same if the work does, provided that the
    instrumentation goes by nothing but what is seen of the world itself. -/
theorem agree_instrumented_logged {setting setting' : Setting ω} {level : TraceLevel}
    (hbackend : setting.backendAt level = setting'.backendAt level)
    (hmethod : setting.config.instrumentationMethod = setting'.config.instrumentationMethod)
    (hoptions : setting.config.instrumentationOptions = setting'.config.instrumentationOptions)
    (hrespects : ∀ backend, setting.config.instrumentationBackend = some backend →
      backend.Respects see.world)
    {α β : Type} (view : α → β) (traceName : String)
    {work work' : State (Logged ω) → α × State (Logged ω)}
    (hwork : see.logged.Agree view work work') :
    see.logged.Agree (Option.map view) (setting.logged.instrumented traceName level work)
      (setting'.logged.instrumented traceName level work') := by
  have hlogged : setting.logged.backendAt level = setting'.logged.backendAt level := by
    rw [backendAt_logged, backendAt_logged, hbackend]
  refine agree_instrumented hlogged hmethod hoptions (fun backend hsome => ?_) view traceName hwork
  rw [backendAt_logged, Option.map_eq_some_iff] at hsome
  obtain ⟨plain, hplain, rfl⟩ := hsome
  exact (hrespects plain (instrumentationBackend_of_backendAt hplain)).logged

/-! ## Steps -/

/-- Whether what two settings make of a step looks alike: their trace entries, and what they make of
    faults and of answers. -/
structure InAccord (see : Sight ω ν) (setting setting' : Setting ω) : Prop where
  traced (step : String) {state state' : State ω} (h : see.state state = see.state state') :
    see.state (setting.traced step state) = see.state (setting'.traced step state')
  settle (step : String) (fault : Fault) :
    see.Agree id (setting.settle step fault) (setting'.settle step fault)
  accept (kind : Kind) (step : String) {answer answer' : Answer}
    (h : see.answer answer = see.answer answer') :
    see.Agree id (setting.accept kind step answer) (setting'.accept kind step answer')

/-- Whether two settings make the same of steps as far as is seen, and of durations, and what is
    instrumented in them does the same if the work does. -/
structure InStep (see : Sight ω ν) (setting setting' : Setting ω) : Prop
    extends InAccord see setting setting' where
  timed (label : String) {before before' after after' : State ω}
    (hbefore : see.world before.world = see.world before'.world)
    (hafter : see.state after = see.state after') :
    see.call (after.call.mapOutcome
        (·.addInformation [(label, (setting.clock before.world after.world).toJson)]))
      = see.call (after'.call.mapOutcome
          (·.addInformation [(label, (setting'.clock before'.world after'.world).toJson)]))
  instrumented {α β : Type} (view : α → β) (traceName : String) (level : TraceLevel)
    {work work' : State ω → α × State ω} (h : see.Agree view work work') :
    see.Agree (Option.map view) (setting.instrumented traceName level work)
      (setting'.instrumented traceName level work')

namespace InAccord

variable {setting setting' : Setting ω}

/-- A step is called alike if its instrumentation does the same whenever the work in it does. -/
theorem agree_callStep (h : InAccord see setting setting') {step : String}
    (hinstrumented : ∀ {work work' : State ω → HandlerEnd × State ω},
      see.Agree see.ending work work' → see.Agree (Option.map see.ending)
        (setting.instrumented ("#" ++ step) .step work)
        (setting'.instrumented ("#" ++ step) .step work'))
    {handler handler' : Handler ω} (hhandler : see.Agree see.ending handler handler') :
    see.Agree (Except.map (Option.map see.answer)) (setting.callStep step handler)
      (setting'.callStep step handler') := by
  intro state state' hstate
  have hwork : see.Agree see.ending (fun state => handler (setting.traced step state))
      (fun state => handler' (setting'.traced step state)) :=
    fun state state' hstate => hhandler _ _ (h.traced step hstate)
  obtain ⟨hended, hmid⟩ := hinstrumented hwork state state' hstate
  simp only [callStep]
  generalize setting.instrumented ("#" ++ step) .step _ state = ran at hended hmid ⊢
  generalize setting'.instrumented ("#" ++ step) .step _ state' = ran' at hended hmid ⊢
  obtain ⟨ended, mid⟩ := ran
  obtain ⟨ended', mid'⟩ := ran'
  cases ended with
  | none =>
    obtain rfl : ended' = none := Option.map_eq_none_iff.1 hended.symm
    exact ⟨rfl, hmid⟩
  | some ending =>
    obtain ⟨ending', rfl, hending⟩ := Option.map_eq_some_iff.1 hended.symm
    have hresult : ending.result.map see.answer = ending'.result.map see.answer := by
      rw [← HandlerEnd.result_mapAnswer, ← HandlerEnd.result_mapAnswer]
      exact congrArg HandlerEnd.result hending.symm
    dsimp only
    cases hanswer : ending.result with
    | ok answer =>
      cases hanswer' : ending'.result with
      | error fault' => rw [hanswer, hanswer'] at hresult; cases hresult
      | ok answer' =>
        rw [hanswer, hanswer'] at hresult
        exact ⟨congrArg (fun seen => Except.ok (some seen)) (Except.ok.inj hresult), hmid⟩
    | error fault =>
      cases hanswer' : ending'.result with
      | ok answer' => rw [hanswer, hanswer'] at hresult; cases hresult
      | error fault' =>
        rw [hanswer, hanswer'] at hresult
        obtain rfl : fault = fault' := Except.error.inj hresult
        obtain ⟨hsettled, hafter⟩ := h.settle step fault mid mid' hmid
        dsimp only
        generalize setting.settle step fault mid = settled at hsettled hafter ⊢
        generalize setting'.settle step fault mid' = settled' at hsettled hafter ⊢
        obtain ⟨result, after⟩ := settled
        obtain ⟨result', after'⟩ := settled'
        obtain rfl : result = result' := hsettled
        cases result <;> exact ⟨rfl, hafter⟩

theorem agree_walkLeaf (h : InAccord see setting setting') (kind : Kind) {step : String}
    (hinstrumented : ∀ {work work' : State ω → HandlerEnd × State ω},
      see.Agree see.ending work work' → see.Agree (Option.map see.ending)
        (setting.instrumented ("#" ++ step) .step work)
        (setting'.instrumented ("#" ++ step) .step work'))
    {handler handler' : Handler ω} (hhandler : see.Agree see.ending handler handler') :
    see.Agree id (setting.walkLeaf kind step handler) (setting'.walkLeaf kind step handler') := by
  intro state state' hstate
  obtain ⟨hanswered, hmid⟩ := h.agree_callStep hinstrumented hhandler state state' hstate
  rw [walkLeaf, walkLeaf, withAnswer, withAnswer]
  generalize setting.callStep step handler state = called at hanswered hmid ⊢
  generalize setting'.callStep step handler' state' = called' at hanswered hmid ⊢
  obtain ⟨answered, mid⟩ := called
  obtain ⟨answered', mid'⟩ := called'
  cases answered with
  | error error =>
    cases answered' with
    | error error' =>
      obtain rfl : error = error' := Except.error.inj hanswered
      exact ⟨rfl, hmid⟩
    | ok answer' => cases hanswered
  | ok answer =>
    cases answered' with
    | error error' => cases hanswered
    | ok answer' =>
      have hanswer : answer.map see.answer = answer'.map see.answer := Except.ok.inj hanswered
      cases answer with
      | none =>
        obtain rfl : answer' = none := Option.map_eq_none_iff.1 hanswer.symm
        exact ⟨rfl, hmid⟩
      | some answer =>
        obtain ⟨answer', rfl, hsame⟩ := Option.map_eq_some_iff.1 hanswer.symm
        exact h.accept kind step hsame.symm mid mid' hmid

end InAccord

namespace InStep

variable {setting setting' : Setting ω}

theorem agree_walkLeaf (h : InStep see setting setting') (kind : Kind) (step : String)
    {handler handler' : Handler ω} (hhandler : see.Agree see.ending handler handler') :
    see.Agree id (setting.walkLeaf kind step handler) (setting'.walkLeaf kind step handler') :=
  h.toInAccord.agree_walkLeaf kind (h.instrumented see.ending ("#" ++ step) .step) hhandler

theorem agree_runBenchmark (h : InStep see setting setting') (label : String)
    {work work' : State ω → Except EngineError Unit × State ω} (hwork : see.Agree id work work') :
    see.Agree id (setting.runBenchmark label work) (setting'.runBenchmark label work') := by
  intro state state' hstate
  obtain ⟨hresult, hafter⟩ := hwork state state' hstate
  rw [runBenchmark, runBenchmark]
  generalize work state = ended at hresult hafter ⊢
  generalize work' state' = ended' at hresult hafter ⊢
  obtain ⟨result, after⟩ := ended
  obtain ⟨result', after'⟩ := ended'
  obtain rfl : result = result' := hresult
  cases result with
  | error error => exact ⟨rfl, hafter⟩
  | ok u =>
    have htimed := h.timed label (Sight.state_eq_iff.1 hstate).2 hafter
    exact ⟨rfl, Sight.state_eq_iff.2 ⟨htimed, (Sight.state_eq_iff.1 hafter).2⟩⟩

end InStep

/-! ## Work in a row and in a tree -/

variable {work work' : State ω → Except EngineError Unit × State ω}

theorem blockAnswer_congr {walked walked' : Except EngineError Unit} {outcome outcome' : Outcome}
    (h : walked = walked') (hfailed : outcome.isFailure = outcome'.isFailure) :
    blockAnswer walked outcome = blockAnswer walked' outcome' := by
  subst h
  cases walked <;> simp only [blockAnswer, hfailed]

/-- The blocks of transactions answer alike if the work in them does. -/
theorem agree_transactionBlock (hwork : see.Agree id work work') {call call' : Call}
    {world world' : ω} (hcall : see.call call = see.call call')
    (hworld : see.world world = see.world world') :
    (transactionBlock work call world).1 = (transactionBlock work' call' world').1
      ∧ see.call (transactionBlock work call world).2.1
        = see.call (transactionBlock work' call' world').2.1
      ∧ see.world (transactionBlock work call world).2.2
        = see.world (transactionBlock work' call' world').2.2 := by
  obtain ⟨hresult, hafter⟩ :=
    hwork ⟨call, world⟩ ⟨call', world'⟩ (Sight.state_eq_iff.2 ⟨hcall, hworld⟩)
  obtain ⟨hcalls, hworlds⟩ := Sight.state_eq_iff.1 hafter
  exact ⟨blockAnswer_congr hresult (Sight.isFailure_eq hcalls), hcalls, hworlds⟩

theorem followAll_cons_eq_goOn (setting : Setting ω) (instruction : Instruction (Handler ω))
    (rest : List (Instruction (Handler ω))) (path : Path) (index : Nat) (scope : Scope) :
    setting.followAll (instruction :: rest) path index scope
      = fun state => goOn scope (setting.followAll rest path (index + 1) scope)
          (setting.follow instruction (path ++ [index]) scope.leaf state) := by
  funext state
  rw [followAll]
  rcases setting.follow instruction (path ++ [index]) scope.leaf state with ⟨_ | _, _⟩ <;> rfl

/-- A list goes on alike if its first instruction and the others are carried out alike. -/
theorem agree_goOn (scope : Scope) {later later' : State ω → Except EngineError Unit × State ω}
    (hwork : see.Agree id work work') (hlater : see.Agree id later later') :
    see.Agree id (fun state => goOn scope later (work state))
      (fun state => goOn scope later' (work' state)) := by
  intro state state' hstate
  obtain ⟨hresult, hafter⟩ := hwork state state' hstate
  dsimp only
  generalize work state = ended at hresult hafter ⊢
  generalize work' state' = ended' at hresult hafter ⊢
  obtain ⟨result, after⟩ := ended
  obtain ⟨result', after'⟩ := ended'
  obtain rfl : result = result' := hresult
  cases result with
  | error error => exact ⟨rfl, hafter⟩
  | ok u =>
    have hstops := Sight.stopsAt_eq hafter scope
    cases hstopped : stopsAt scope after with
    | true =>
      rw [goOn_of_stops hstopped, goOn_of_stops (hstops.symm.trans hstopped)]
      exact ⟨rfl, hafter⟩
    | false =>
      rw [goOn_of_not_stops hstopped, goOn_of_not_stops (hstops.symm.trans hstopped)]
      exact hlater after after' hafter

/-- Notes of the begin and the end look alike if the work does the same. -/
theorem agree_noted (path : Path)
    {work work' : State (Logged ω) → Except EngineError Unit × State (Logged ω)}
    (hwork : see.logged.Agree id work work') :
    see.logged.Agree id (noted path work) (noted path work') := by
  have hnote : ∀ {state state' : State (Logged ω)} {event event' : Event},
      see.logged.state state = see.logged.state state' → see.event event = see.event event' →
      see.logged.state (state.note event) = see.logged.state (state'.note event') := by
    intro state state' event event' hstate hevent
    obtain ⟨hplain, hlogs⟩ := Sight.state_logged_eq_iff.1 hstate
    refine Sight.state_logged_eq_iff.2 ⟨hplain, Sight.events_append_congr hlogs ?_⟩
    rw [Sight.events, Sight.events, List.filterMap_cons, List.filterMap_cons, hevent]
  intro state state' hstate
  have hcall : see.call state.call = see.call state'.call := (Sight.state_eq_iff.1 hstate).1
  have hbegan : see.event (.began path state.call) = see.event (.began path state'.call) := by
    rw [see.event_began, see.event_began, hcall]
  obtain ⟨hresult, hafter⟩ := hwork _ _ (hnote hstate hbegan)
  rw [noted, noted]
  generalize work (state.note (.began path state.call)) = ended at hresult hafter ⊢
  generalize work' (state'.note (.began path state'.call)) = ended' at hresult hafter ⊢
  obtain ⟨result, after⟩ := ended
  obtain ⟨result', after'⟩ := ended'
  obtain rfl : result = result' := hresult
  have hcall' : see.call after.call = see.call after'.call := (Sight.state_eq_iff.1 hafter).1
  have hended : see.event (.ended path result after.call)
      = see.event (.ended path result after'.call) := by
    rw [see.event_ended, see.event_ended, hcall']
  exact ⟨rfl, hnote hafter hended⟩

/-! ## Whole calls -/

/-- If the walks of two calls end alike, so do the calls. Of their outcomes, `view` is seen. -/
theorem perform_alike_of_followCall {setting setting' : Setting ω} {α : Type} {view : Outcome → α}
    (hview : ∀ call call', see.call call = see.call call' → view call.outcome = view call'.outcome)
    (hvalid : setting.config.validate = setting'.config.validate)
    {instructions instructions' : List (Instruction (Handler ω))} {arguments : Arguments}
    {world world' : ω} (hworld : see.world world = see.world world')
    (hfollowed : (setting.followCall instructions arguments world).1
        = (setting'.followCall instructions' arguments world').1
      ∧ see.logged.state (setting.followCall instructions arguments world).2
        = see.logged.state (setting'.followCall instructions' arguments world').2) :
    (setting.perform instructions arguments world).1.map view
        = (setting'.perform instructions' arguments world').1.map view
      ∧ see.world (setting.perform instructions arguments world).2
        = see.world (setting'.perform instructions' arguments world').2
      ∧ see.events (setting.transcript instructions arguments world)
        = see.events (setting'.transcript instructions' arguments world') := by
  cases hvalidate : setting.config.validate with
  | error error =>
    rw [perform, perform, transcript, transcript, ← hvalid, hvalidate]
    exact ⟨rfl, hworld, rfl⟩
  | ok u =>
    have hvalidate' := hvalid.symm.trans hvalidate
    obtain ⟨hended, hafter⟩ := hfollowed
    obtain ⟨hplain, hlogs⟩ := Sight.state_logged_eq_iff.1 hafter
    rw [plain_followCall setting instructions arguments world hvalidate,
      plain_followCall setting' instructions' arguments world' hvalidate', transcript, transcript,
      hvalidate, hvalidate']
    generalize setting.followCall instructions arguments world = ran at hended hplain hlogs ⊢
    generalize setting'.followCall instructions' arguments world' = ran' at hended hplain hlogs ⊢
    obtain ⟨ended, after⟩ := ran
    obtain ⟨ended', after'⟩ := ran'
    obtain rfl : ended = ended' := hended
    obtain ⟨hcall, hworlds⟩ := Sight.state_eq_iff.1 hplain
    have houtcome : (Except.ok (view after.call.outcome) : Except EngineError α)
        = .ok (view after'.call.outcome) := congrArg Except.ok (hview _ _ hcall)
    cases ended with
    | none => exact ⟨houtcome, hworlds, hlogs⟩
    | some result =>
      cases result with
      | error error => exact ⟨rfl, hworlds, hlogs⟩
      | ok u => exact ⟨houtcome, hworlds, hlogs⟩

/-- If two settings run in step and what they carry out looks alike, so do whole calls. Of their
    outcomes, `view` is seen. -/
theorem InStep.perform_alike {setting setting' : Setting ω} {α : Type} {view : Outcome → α}
    (h : InStep see.logged setting.logged setting'.logged)
    (hview : ∀ call call', see.call call = see.call call' → view call.outcome = view call'.outcome)
    (hname : setting.displayName = setting'.displayName)
    (hvalid : setting.config.validate = setting'.config.validate)
    {instructions instructions' : List (Instruction (Handler ω))}
    (hwalks : see.logged.Agree id (setting.followAll instructions [] 0 .root)
      (setting'.followAll instructions' [] 0 .root))
    (arguments : Arguments) {world world' : ω} (hworld : see.world world = see.world world') :
    (setting.perform instructions arguments world).1.map view
        = (setting'.perform instructions' arguments world').1.map view
      ∧ see.world (setting.perform instructions arguments world).2
        = see.world (setting'.perform instructions' arguments world').2
      ∧ see.events (setting.transcript instructions arguments world)
        = see.events (setting'.transcript instructions' arguments world') := by
  obtain ⟨hended, hafter⟩ := h.instrumented id setting.displayName .operation hwalks _ _
    (Sight.state_start_eq hworld arguments)
  refine perform_alike_of_followCall hview hvalid hworld ?_
  rw [followCall, followCall, ← hname]
  exact ⟨by simpa using hended, hafter⟩

end Setting

end OperationPipeline

import OperationPipeline.Proofs.Acceptance
import OperationPipeline.Proofs.Contract
import OperationPipeline.Proofs.Transcript

set_option autoImplicit false

/-! # Courses

What can happen while something is carried out, seen from the call alone. Worlds are left out, and
backends show only through the contracts that they meet. `Course` has one rule for each thing that
the walk can do next; it relates the call before, what happened, the result, and the call after.

Main statement: whatever is followed takes a course (`takes_follow`, `takes_followAll`), so that
what holds of all courses holds of every transcript. -/

namespace OperationPipeline

/-! ## The rules -/

/-- Something to be carried out. -/
inductive Task (η : Type) where
  /-- The instruction at the path, where plain steps around it are of the kind `inherited`. -/
  | node (path : Path) (instruction : Instruction η) (inherited : Kind)
  /-- The instruction without the notes of its begin and its end. -/
  | wrapped (path : Path) (instruction : Instruction η) (inherited : Kind)
  /-- What is inside the wrapper of the instruction. -/
  | inner (path : Path) (instruction : Instruction η) (inherited : Kind)
  /-- The block of a transaction, run several times and giving these answers. -/
  | rounds (path : Path) (instruction : Instruction η) (inherited : Kind)
      (answers : List (Except Abort Unit))
  /-- The members of the list at the path from the given index on. -/
  | members (path : Path) (index : Nat) (body : List (Instruction η)) (scope : Scope)

/-- Whether an event is between the engine and the instrumentation. -/
def Event.IsTrace : Event → Prop
  | .traceOpened _ _ _ | .traceRan => True
  | _ => False

theorem HandlerEnd.eq_answered {ending : HandlerEnd} {answer : Answer}
    (h : ending.result = .ok answer) : ending = .answered answer := by
  cases ending with
  | answered given => rw [Except.ok.inj h]
  | faulted fault => exact nomatch h
  | panicked panic => exact nomatch h

/-- Whether a handler can take one state of the call to another, in some world. -/
def Handler.Leads {ω : Type} (handler : Handler ω) (before : Call) (ending : HandlerEnd)
    (after : Call) : Prop :=
  ∃ world world', handler ⟨before, world⟩ = (ending, ⟨after, world'⟩)

variable {ω : Type}

/-- The call with a plain entry for the step, if steps are traced. -/
def Setting.tracedCall (setting : Setting ω) (step : String) (call : Call) : Call :=
  if setting.config.tracesSteps then call.mapOutcome (·.addTrace (.step step)) else call

/-- The settling of a fault. -/
inductive Settled (setting : Setting ω) (step : String) (fault : Fault) (call : Call) :
    List Event → Except EngineError Unit → Call → Prop where
  | raised {error : EngineError} (h : fault.authoring? = some error) :
    Settled setting step fault call [] (.error error) call
  | recorded (h : fault.authoring? = none) :
    Settled setting step fault call [.recorded fault.recovered] (.ok ())
      (call.mapOutcome (·.addException step fault.recovered.message setting.name))

/-- The work on a single step of the given kind. -/
inductive Stepped (setting : Setting ω) (path : Path) (kind : Kind) (step : String)
    (handler : Handler ω) : Call → List Event → Except EngineError Unit → Call → Prop where
  /-- The instrumentation never runs its block. -/
  | skipped {call : Call} {events : List Event} {backend : Instrumentation ω}
      (hbackend : setting.backendAt .step = some backend)
      (hmeets : ∀ contract, backend.Meets contract → contract [] ())
      (hevents : ∀ event ∈ events, event.IsTrace) :
    Stepped setting path kind step handler call events (.ok ()) call
  /-- The handler answers. -/
  | answered {before mid after : Call} {opening closing : List Event} {ending : HandlerEnd}
      {answer : Answer} {result : Except EngineError Unit}
      (hopening : ∀ event ∈ opening, event.IsTrace) (hclosing : ∀ event ∈ closing, event.IsTrace)
      (hhandler : handler.Leads (setting.tracedCall step before) ending mid)
      (hanswer : ending.result = .ok answer)
      (haccepts : setting.Accepts step mid kind answer result after) :
    Stepped setting path kind step handler before
      (opening ++ .entered path (setting.tracedCall step before) :: .returned path ending mid
        :: closing) result after
  /-- The handler faults. -/
  | faulted {before mid after : Call} {opening closing events : List Event} {ending : HandlerEnd}
      {fault : Fault} {result : Except EngineError Unit}
      (hopening : ∀ event ∈ opening, event.IsTrace) (hclosing : ∀ event ∈ closing, event.IsTrace)
      (hhandler : handler.Leads (setting.tracedCall step before) ending mid)
      (hfault : ending.result = .error fault)
      (hsettled : Settled setting step fault mid events result after) :
    Stepped setting path kind step handler before
      (opening ++ .entered path (setting.tracedCall step before) :: .returned path ending mid
        :: (closing ++ events)) result after

/-- The end of a transaction whose backend has given its last answer. -/
inductive Closed (setting : Setting ω) (call : Call) :
    Except Abort Unit → List Event → Except EngineError Unit → Call → Prop where
  | committed : Closed setting call (.ok ()) [] (.ok ()) call
  /-- The signal to roll back ends here. -/
  | rolledBack {abort : Abort} (h : abort.fault? = none) :
    Closed setting call (.error abort) [] (.ok ()) call
  | faulted {abort : Abort} {fault : Fault} {events : List Event}
      {result : Except EngineError Unit} {after : Call} (h : abort.fault? = some fault)
      (hsettled : Settled setting Setting.transactionStep fault call events result after) :
    Closed setting call (.error abort) events result after

/-- What can happen while a task is carried out. -/
inductive Course (setting : Setting ω) :
    Task (Handler ω) → Call → List Event → Except EngineError Unit → Call → Prop where
  | node {path : Path} {instruction : Instruction (Handler ω)} {inherited : Kind}
      {before after : Call} {events : List Event} {result : Except EngineError Unit}
      (h : Course setting (.wrapped path instruction inherited) before events result after) :
    Course setting (.node path instruction inherited) before
      (.began path before :: (events ++ [.ended path result after])) result after
  /-- A node without a wrapper. -/
  | plain {path : Path} {instruction : Instruction (Handler ω)} {inherited : Kind}
      {before after : Call} {events : List Event} {result : Except EngineError Unit}
      (htransaction : instruction.kind ≠ .transaction) (hbenchmark : instruction.kind ≠ .benchmark)
      (h : Course setting (.inner path instruction inherited) before events result after) :
    Course setting (.wrapped path instruction inherited) before events result after
  /-- A benchmark in which an error is raised. -/
  | untimed {path : Path} {instruction : Instruction (Handler ω)} {inherited : Kind}
      {before after : Call} {events : List Event} {error : EngineError}
      (hkind : instruction.kind = .benchmark)
      (h : Course setting (.inner path instruction inherited) before events (.error error) after) :
    Course setting (.wrapped path instruction inherited) before events (.error error) after
  | timed {path : Path} {instruction : Instruction (Handler ω)} {inherited : Kind}
      {before after : Call} {events : List Event} {timing : Timing}
      (hkind : instruction.kind = .benchmark)
      (h : Course setting (.inner path instruction inherited) before events (.ok ()) after) :
    Course setting (.wrapped path instruction inherited) before events (.ok ())
      (after.mapOutcome (·.addInformation [(instruction.label, timing.toJson)]))
  /-- A transaction without a backend. -/
  | unbacked {path : Path} {instruction : Instruction (Handler ω)} {inherited : Kind} {call : Call}
      (hkind : instruction.kind = .transaction)
      (hbackend : setting.config.transactionBackend = none) :
    Course setting (.wrapped path instruction inherited) call []
      (.error (.transactionBackendMissing setting.displayName)) call
  | backed {path : Path} {instruction : Instruction (Handler ω)} {inherited : Kind}
      {before mid after : Call} {events later : List Event} {result : Except EngineError Unit}
      {backend : TransactionBackend ω} {answers : List (Except Abort Unit)}
      {last : Except Abort Unit}
      (hkind : instruction.kind = .transaction)
      (hbackend : setting.config.transactionBackend = some backend)
      (hmeets : ∀ contract, backend.Meets contract → contract answers last)
      (h : Course setting (.rounds path instruction inherited answers) before events (.ok ()) mid)
      (hclosed : Closed setting mid last later result after) :
    Course setting (.wrapped path instruction inherited) before
      (.transactionOpened setting.config.transactionMethod setting.config.transactionOptions
        :: (events ++ later)) result after
  | noRound {path : Path} {instruction : Instruction (Handler ω)} {inherited : Kind}
      {call : Call} :
    Course setting (.rounds path instruction inherited []) call [] (.ok ()) call
  | round {path : Path} {instruction : Instruction (Handler ω)} {inherited : Kind}
      {before mid after : Call} {events later : List Event} {result : Except EngineError Unit}
      {answers : List (Except Abort Unit)}
      (h : Course setting (.inner path instruction inherited) before events result mid)
      (hlater : Course setting (.rounds path instruction inherited answers) mid later (.ok ())
        after) :
    Course setting
      (.rounds path instruction inherited (Setting.blockAnswer result mid.outcome :: answers))
      before (events ++ .blockAnswered (Setting.blockAnswer result mid.outcome) :: later) (.ok ())
      after
  | leaf {path : Path} {kind inherited : Kind} {step : String} {handler : Handler ω}
      {before after : Call} {events : List Event} {result : Except EngineError Unit}
      (h : Stepped setting path (Scope.leafKind kind inherited) step handler before events result
        after) :
    Course setting (.inner path (.leaf kind step handler) inherited) before events result after
  | block {path : Path} {kind inherited : Kind} {body : List (Instruction (Handler ω))}
      {before after : Call} {events : List Event} {result : Except EngineError Unit}
      (h : Course setting (.members path 0 body (Scope.inside kind inherited)) before events result
        after) :
    Course setting (.inner path (.block kind body) inherited) before events result after
  | nil {path : Path} {index : Nat} {scope : Scope} {call : Call} :
    Course setting (.members path index [] scope) call [] (.ok ()) call
  /-- An error ends a list. -/
  | raised {path : Path} {index : Nat} {instruction : Instruction (Handler ω)}
      {rest : List (Instruction (Handler ω))} {scope : Scope} {before after : Call}
      {events : List Event} {error : EngineError}
      (h : Course setting (.node (path ++ [index]) instruction scope.leaf) before events
        (.error error) after) :
    Course setting (.members path index (instruction :: rest) scope) before events (.error error)
      after
  /-- The rule of its scope ends a list. -/
  | stopped {path : Path} {index : Nat} {instruction : Instruction (Handler ω)}
      {rest : List (Instruction (Handler ω))} {scope : Scope} {before after : Call}
      {events : List Event}
      (h : Course setting (.node (path ++ [index]) instruction scope.leaf) before events (.ok ())
        after)
      (hstops : scope.rule.stops after.finished after.outcome.isFailure = true) :
    Course setting (.members path index (instruction :: rest) scope) before events (.ok ()) after
  /-- A list goes on. -/
  | next {path : Path} {index : Nat} {instruction : Instruction (Handler ω)}
      {rest : List (Instruction (Handler ω))} {scope : Scope} {before mid after : Call}
      {events later : List Event} {result : Except EngineError Unit}
      (h : Course setting (.node (path ++ [index]) instruction scope.leaf) before events (.ok ())
        mid)
      (hstops : scope.rule.stops mid.finished mid.outcome.isFailure = false)
      (hlater : Course setting (.members path (index + 1) rest scope) mid later result after) :
    Course setting (.members path index (instruction :: rest) scope) before (events ++ later)
      result after

/-- What can happen during a whole call. -/
inductive CallCourse (setting : Setting ω) (instructions : List (Instruction (Handler ω)))
    (start : Call) : List Event → Option (Except EngineError Unit) → Call → Prop where
  /-- The instrumentation never runs its block. -/
  | skipped {backend : Instrumentation ω} {events : List Event}
      (hbackend : setting.config.instrumentationBackend = some backend)
      (hmeets : ∀ contract, backend.Meets contract → contract [] ())
      (hevents : ∀ event ∈ events, event.IsTrace) :
    CallCourse setting instructions start events none start
  | walked {opening events closing : List Event} {result : Except EngineError Unit} {after : Call}
      (hopening : ∀ event ∈ opening, event.IsTrace) (hclosing : ∀ event ∈ closing, event.IsTrace)
      (h : Course setting (.members [] 0 instructions .root) start events result after) :
    CallCourse setting instructions start (opening ++ events ++ closing) (some result) after

/-! ## Work that takes a course -/

/-- Whether work in a logged world only adds to the log, and does what the relation allows. -/
def Takes (work : State (Logged ω) → Except EngineError Unit × State (Logged ω))
    (course : Call → List Event → Except EngineError Unit → Call → Prop) : Prop :=
  ∀ state, ∃ events, (work state).2.world.log = state.world.log ++ events
    ∧ course state.call events (work state).1 (work state).2.call

namespace Setting

variable (setting : Setting ω)

/-! ### Instrumentation -/

/-- Once its work is done, the block of an instrumentation does nothing more. -/
theorem drive_firstRun_some {α : Type} (interaction : Interaction ω Unit Unit)
    (work : State (Logged ω) → α × State (Logged ω)) (answer : α) (call : Call)
    (log : List Event) :
    ∃ events world, (∀ event ∈ events, Event.IsTrace event)
      ∧ (interaction.logged (fun _ => .traceRan) log).drive (firstRun work) (some answer, call)
        = ((), (some answer, call), ⟨world, log ++ events⟩) := by
  induction interaction generalizing log with
  | finish last world =>
    refine ⟨[], world, List.forall_mem_nil _, ?_⟩
    rw [List.append_nil]
    rfl
  | run world resume ih =>
    obtain ⟨events, world', hevents, hdrive⟩ := ih () world (log ++ [.traceRan])
    refine ⟨.traceRan :: events, world', List.forall_mem_cons.2 ⟨trivial, hevents⟩, ?_⟩
    rw [List.append_cons, ← hdrive]
    rfl

/-- How instrumented work ends: it was not done at all, or it was done once. -/
inductive Instrumented {α : Type} (level : TraceLevel)
    (work : State (Logged ω) → α × State (Logged ω)) (state : State (Logged ω)) :
    Option α × State (Logged ω) → Prop where
  | skipped {backend : Instrumentation ω} {events : List Event} {world : ω}
      (hbackend : setting.backendAt level = some backend)
      (hmeets : ∀ contract, backend.Meets contract → contract [] ())
      (hevents : ∀ event ∈ events, event.IsTrace) :
    Instrumented level work state (none, ⟨state.call, ⟨world, state.world.log ++ events⟩⟩)
  | done {opening closing : List Event} {world world' : ω} {ended : α × State (Logged ω)}
      (hopening : ∀ event ∈ opening, event.IsTrace) (hclosing : ∀ event ∈ closing, event.IsTrace)
      (hended : ended = work ⟨state.call, ⟨world, state.world.log ++ opening⟩⟩) :
    Instrumented level work state
      (some ended.1, ⟨ended.2.call, ⟨world', ended.2.world.log ++ closing⟩⟩)

theorem instrumented_logged {α : Type} (traceName : String) (level : TraceLevel)
    (work : State (Logged ω) → α × State (Logged ω)) (state : State (Logged ω)) :
    setting.Instrumented level work state
      (setting.logged.instrumented traceName level work state) := by
  simp only [instrumented, backendAt_logged]
  cases hbackend : setting.backendAt level with
  | none =>
    have hended : work state = work ⟨state.call, ⟨state.world.world, state.world.log ++ []⟩⟩ := by
      rw [List.append_nil]
    have hdone : setting.Instrumented level work state (some (work state).1,
        ⟨(work state).2.call, ⟨(work state).2.world.world, (work state).2.world.log ++ []⟩⟩) :=
      .done (List.forall_mem_nil _) (List.forall_mem_nil _) hended
    rw [List.append_nil] at hdone
    exact hdone
  | some backend =>
    simp only [Option.map_some, Instrumentation.logged, Setting.logged]
    have hopened : ∀ event ∈ [Event.traceOpened setting.config.instrumentationMethod traceName
        setting.config.instrumentationOptions], event.IsTrace :=
      List.forall_mem_singleton.2 trivial
    cases hplay : backend setting.config.instrumentationMethod traceName
        setting.config.instrumentationOptions state.world.world with
    | finish last world =>
      refine .skipped hbackend (fun contract hmeets => ?_) hopened
      have hplayed := hmeets setting.config.instrumentationMethod traceName
        setting.config.instrumentationOptions state.world.world
      rw [hplay] at hplayed
      exact hplayed
    | run world resume =>
      obtain ⟨ended, hended⟩ : ∃ ended, ended = work ⟨state.call, ⟨world, state.world.log
        ++ [.traceOpened setting.config.instrumentationMethod traceName
          setting.config.instrumentationOptions]⟩⟩ := ⟨_, rfl⟩
      obtain ⟨closing, world', hclosing, hdrive⟩ := drive_firstRun_some
        (resume () ended.2.world.world) work ended.1 ended.2.call
        (ended.2.world.log ++ [.traceRan])
      rw [Interaction.logged, Interaction.drive_run, firstRun, ← hended]
      dsimp only
      rw [hdrive, ← List.append_cons]
      exact .done hopened (List.forall_mem_cons.2 ⟨trivial, hclosing⟩) hended

/-! ### Steps -/

theorem traced_eq (step : String) (state : State ω) :
    setting.traced step state = ⟨setting.tracedCall step state.call, state.world⟩ := by
  rw [traced, tracedCall]
  split <;> rfl

theorem traced_logged (step : String) (state : State (Logged ω)) :
    setting.logged.traced step state = ⟨setting.tracedCall step state.call, state.world⟩ :=
  setting.logged.traced_eq step state

/-- A fault is settled as the rules say. -/
theorem settled_settle (step : String) (fault : Fault) (state : State (Logged ω)) :
    ∃ events, (setting.logged.settle step fault state).2.world.log = state.world.log ++ events
      ∧ Settled setting step fault state.call events (setting.logged.settle step fault state).1
        (setting.logged.settle step fault state).2.call := by
  rw [settle]
  cases hauthoring : fault.authoring? with
  | some error => exact ⟨[], (List.append_nil _).symm, .raised hauthoring⟩
  | none => exact ⟨[.recorded fault.recovered], rfl, .recorded hauthoring⟩

/-- After the handler has answered, its answer is taken. -/
theorem takes_answered {path : Path} {kind : Kind} {step : String} {handler : Handler ω}
    {before mid : Call} {opening closing : List Event} {ending : HandlerEnd} {answer : Answer}
    (hopening : ∀ event ∈ opening, event.IsTrace) (hclosing : ∀ event ∈ closing, event.IsTrace)
    (hhandler : handler.Leads (setting.tracedCall step before) ending mid)
    (hanswer : ending.result = .ok answer) (world : Logged ω) :
    ∃ result after,
      setting.logged.accept kind step answer ⟨mid, world⟩ = (result, ⟨after, world⟩)
        ∧ Stepped setting path kind step handler before (opening
          ++ .entered path (setting.tracedCall step before) :: .returned path ending mid
            :: closing) result after := by
  refine ⟨_, _, accept_congr setting setting.logged rfl kind step answer mid world.world world, ?_⟩
  exact .answered hopening hclosing hhandler hanswer
    (setting.accepts_accept kind step answer ⟨mid, world.world⟩)

/-- After the handler has faulted, its fault is settled. -/
theorem takes_faulted {path : Path} {kind : Kind} {step : String} {handler : Handler ω}
    {before mid : Call} {opening closing : List Event} {ending : HandlerEnd} {fault : Fault}
    (hopening : ∀ event ∈ opening, event.IsTrace) (hclosing : ∀ event ∈ closing, event.IsTrace)
    (hhandler : handler.Leads (setting.tracedCall step before) ending mid)
    (hfault : ending.result = .error fault) (world : Logged ω) :
    ∃ events result after world',
      setting.logged.settle step fault ⟨mid, world⟩ = (result, ⟨after, world'⟩)
        ∧ world'.log = world.log ++ events
        ∧ Stepped setting path kind step handler before (opening
          ++ .entered path (setting.tracedCall step before) :: .returned path ending mid
            :: (closing ++ events)) result after := by
  obtain ⟨events, hlog, hsettled⟩ := setting.settled_settle step fault ⟨mid, world⟩
  exact ⟨events, _, _, _, rfl, hlog, .faulted hopening hclosing hhandler hfault hsettled⟩

theorem takes_walkLeaf (path : Path) (kind : Kind) (step : String) (handler : Handler ω) :
    Takes (setting.logged.walkLeaf kind step (handler.logged path))
      (Stepped setting path kind step handler) := by
  intro state
  simp only [walkLeaf, withAnswer, callStep]
  have hinstrumented := setting.instrumented_logged ("#" ++ step) .step
    (fun state => (handler.logged path) (setting.logged.traced step state)) state
  generalize setting.logged.instrumented ("#" ++ step) .step _ state = ended at hinstrumented ⊢
  cases hinstrumented with
  | @skipped backend events world hbackend hmeets hevents =>
    exact ⟨events, rfl, .skipped hbackend hmeets hevents⟩
  | @done opening closing world world' ended hopening hclosing hended =>
    rw [traced_logged] at hended
    dsimp only [Handler.logged, State.plain] at hended
    rcases hrun : handler ⟨setting.tracedCall step state.call, world⟩ with ⟨ending, mid⟩
    rw [hrun] at hended
    subst hended
    have hhandler : handler.Leads (setting.tracedCall step state.call) ending mid.call :=
      ⟨world, mid.world, hrun⟩
    dsimp only
    cases hresult : ending.result with
    | ok answer =>
      obtain ⟨result, after, haccept, hstepped⟩ :=
        setting.takes_answered hopening hclosing hhandler hresult _
      dsimp only
      rw [haccept]
      refine ⟨_, ?_, hstepped⟩
      simp only [List.append_assoc, List.cons_append, List.nil_append]
    | error fault =>
      obtain ⟨events, result, after, last, hsettle, hlog, hstepped⟩ :=
        setting.takes_faulted hopening hclosing hhandler hresult _
      dsimp only
      rw [hsettle]
      have hlogged : last.log = state.world.log ++ (opening
          ++ .entered path (setting.tracedCall step state.call) :: .returned path ending mid.call
            :: (closing ++ events)) := by
        rw [hlog]
        simp only [List.append_assoc, List.cons_append, List.nil_append]
      cases result with
      | ok u => exact ⟨_, hlogged, hstepped⟩
      | error error => exact ⟨_, hlogged, hstepped⟩

/-! ### Wrappers -/

theorem takes_noted {path : Path} {instruction : Instruction (Handler ω)} {inherited : Kind}
    {work : State (Logged ω) → Except EngineError Unit × State (Logged ω)}
    (h : Takes work (Course setting (.wrapped path instruction inherited))) :
    Takes (noted path work) (Course setting (.node path instruction inherited)) := by
  intro state
  obtain ⟨events, hlog, hcourse⟩ := h (state.note (.began path state.call))
  refine ⟨_, ?_, .node hcourse⟩
  rw [noted]
  simp only [State.log_note, hlog, List.append_assoc, List.cons_append, List.nil_append]
  rfl

theorem takes_runBenchmark {path : Path} {instruction : Instruction (Handler ω)}
    {inherited : Kind} (hkind : instruction.kind = .benchmark)
    {work : State (Logged ω) → Except EngineError Unit × State (Logged ω)}
    (h : Takes work (Course setting (.inner path instruction inherited))) :
    Takes (setting.logged.runBenchmark instruction.label work)
      (Course setting (.wrapped path instruction inherited)) := by
  intro state
  obtain ⟨events, hlog, hcourse⟩ := h state
  rw [runBenchmark]
  generalize work state = ended at hlog hcourse ⊢
  obtain ⟨result, after⟩ := ended
  cases result with
  | error error => exact ⟨events, hlog, .untimed hkind hcourse⟩
  | ok u => exact ⟨events, hlog, .timed hkind hcourse⟩

/-- What a transaction backend does with its block, whatever it is. -/
theorem takes_rounds {path : Path} {instruction : Instruction (Handler ω)} {inherited : Kind}
    {work : State (Logged ω) → Except EngineError Unit × State (Logged ω)}
    (h : Takes work (Course setting (.inner path instruction inherited)))
    (interaction : Interaction ω (Except Abort Unit) (Except Abort Unit)) (log : List Event)
    (call : Call) :
    ∃ events answers last after world,
      (interaction.logged .blockAnswered log).drive (transactionBlock work) call
          = (last, after, ⟨world, log ++ events⟩)
        ∧ Course setting (.rounds path instruction inherited answers) call events (.ok ()) after
        ∧ ∀ contract, interaction.Meets contract → contract answers last := by
  induction interaction generalizing log call with
  | finish last world =>
    refine ⟨[], [], last, call, world, ?_, .noRound, fun contract hmeets => hmeets⟩
    rw [List.append_nil]
    rfl
  | run world resume ih =>
    obtain ⟨events, hlog, hcourse⟩ := h ⟨call, ⟨world, log⟩⟩
    rw [Interaction.logged, Interaction.drive_run, transactionBlock]
    generalize work ⟨call, ⟨world, log⟩⟩ = ended at hlog hcourse ⊢
    obtain ⟨result, mid⟩ := ended
    dsimp only at hlog hcourse ⊢
    obtain ⟨later, answers, last, after, world', hdrive, hlater, hmeets⟩ :=
      ih (blockAnswer result mid.call.outcome) mid.world.world
        (mid.world.log ++ [.blockAnswered (blockAnswer result mid.call.outcome)]) mid.call
    refine ⟨_, _, last, after, world', ?_, .round hcourse hlater, fun contract hcontract => ?_⟩
    · rw [hdrive, hlog]
      simp only [List.append_assoc, List.cons_append, List.nil_append]
    · exact hmeets _ (hcontract _ _)

theorem takes_runTransaction {path : Path} {instruction : Instruction (Handler ω)}
    {inherited : Kind} (hkind : instruction.kind = .transaction)
    {work : State (Logged ω) → Except EngineError Unit × State (Logged ω)}
    (h : Takes work (Course setting (.inner path instruction inherited))) :
    Takes (setting.logged.runTransaction work)
      (Course setting (.wrapped path instruction inherited)) := by
  intro state
  simp only [runTransaction, Setting.logged]
  cases hbackend : setting.config.transactionBackend with
  | none => exact ⟨[], (List.append_nil _).symm, .unbacked hkind hbackend⟩
  | some backend =>
    dsimp only [Option.map_some, TransactionBackend.logged]
    obtain ⟨events, answers, last, mid, world, hdrive, hcourse, hcontracts⟩ :=
      setting.takes_rounds h
        (backend setting.config.transactionMethod setting.config.transactionOptions
          state.world.world)
        (state.world.log ++ [.transactionOpened setting.config.transactionMethod
          setting.config.transactionOptions]) state.call
    have hmeets : ∀ contract, backend.Meets contract → contract answers last :=
      fun contract hcontract => hcontracts contract (hcontract _ _ _)
    rw [hdrive]
    cases last with
    | ok u =>
      refine ⟨_, ?_, .backed hkind hbackend hmeets hcourse .committed⟩
      simp only [List.append_assoc, List.append_nil, List.cons_append, List.nil_append]
    | error abort =>
      dsimp only
      cases hsignal : abort.fault? with
      | none =>
        refine ⟨_, ?_, .backed hkind hbackend hmeets hcourse (.rolledBack hsignal)⟩
        simp only [List.append_assoc, List.append_nil, List.cons_append, List.nil_append]
      | some fault =>
        obtain ⟨later, hlog, hsettled⟩ := setting.settled_settle transactionStep fault
          ⟨mid, ⟨world, state.world.log ++ [.transactionOpened setting.config.transactionMethod
            setting.config.transactionOptions] ++ events⟩⟩
        refine ⟨_, ?_, .backed hkind hbackend hmeets hcourse (.faulted hsignal hsettled)⟩
        refine hlog.trans ?_
        simp only [List.append_assoc, List.cons_append, List.nil_append]

/-- The wrapper of a node takes a course if what is inside does. -/
theorem takes_around {path : Path} {instruction : Instruction (Handler ω)} {inherited : Kind}
    {work : State (Logged ω) → Except EngineError Unit × State (Logged ω)}
    (h : Takes work (Course setting (.inner path instruction inherited))) :
    Takes (setting.logged.around instruction.kind instruction.label work)
      (Course setting (.wrapped path instruction inherited)) := by
  by_cases htransaction : instruction.kind = .transaction
  · rw [htransaction]
    exact setting.takes_runTransaction htransaction h
  by_cases hbenchmark : instruction.kind = .benchmark
  · rw [hbenchmark]
    exact setting.takes_runBenchmark hbenchmark h
  have haround : setting.logged.around instruction.kind instruction.label work = work := by
    cases hkind : instruction.kind with
    | transaction => exact absurd hkind htransaction
    | benchmark => exact absurd hkind hbenchmark
    | _ => rfl
  rw [haround]
  intro state
  obtain ⟨events, hlog, hcourse⟩ := h state
  exact ⟨events, hlog, .plain htransaction hbenchmark hcourse⟩

/-! ### The tree -/

mutual

theorem takes_follow : (instruction : Instruction (Handler ω)) → (path : Path) →
    (inherited : Kind) →
    Takes (setting.follow instruction path inherited)
      (Course setting (.node path instruction inherited))
  | .leaf kind name handler, path, inherited => by
    have hinner : Takes
        (setting.logged.walkLeaf (Scope.leafKind kind inherited) name (handler.logged path))
        (Course setting (.inner path (.leaf kind name handler) inherited)) := by
      intro state
      obtain ⟨events, hlog, hstepped⟩ :=
        setting.takes_walkLeaf path (Scope.leafKind kind inherited) name handler state
      exact ⟨events, hlog, .leaf hstepped⟩
    exact setting.takes_noted (setting.takes_around hinner)
  | .block kind body, path, inherited => by
    have hinner : Takes (setting.followAll body path 0 (Scope.inside kind inherited))
        (Course setting (.inner path (.block kind body) inherited)) := by
      intro state
      obtain ⟨events, hlog, hcourse⟩ :=
        takes_followAll body path 0 (Scope.inside kind inherited) state
      exact ⟨events, hlog, .block hcourse⟩
    exact setting.takes_noted (setting.takes_around hinner)
termination_by structural instruction => instruction

theorem takes_followAll : (body : List (Instruction (Handler ω))) → (path : Path) →
    (index : Nat) → (scope : Scope) →
    Takes (setting.followAll body path index scope)
      (Course setting (.members path index body scope))
  | [], path, index, scope => fun state => ⟨[], (List.append_nil _).symm, .nil⟩
  | instruction :: rest, path, index, scope => by
    intro state
    obtain ⟨events, hlog, hcourse⟩ := takes_follow instruction (path ++ [index]) scope.leaf state
    rw [followAll]
    generalize setting.follow instruction (path ++ [index]) scope.leaf state = ended
      at hlog hcourse ⊢
    obtain ⟨result, mid⟩ := ended
    cases result with
    | error error => exact ⟨events, hlog, .raised hcourse⟩
    | ok u =>
      dsimp only at hlog hcourse ⊢
      by_cases hstops : stopsAt scope mid = true
      · rw [if_pos hstops]
        exact ⟨events, hlog, .stopped hcourse hstops⟩
      · rw [if_neg hstops]
        obtain ⟨later, hlog', hlater⟩ := takes_followAll rest path (index + 1) scope mid
        refine ⟨events ++ later, ?_, .next hcourse (Bool.eq_false_iff.2 hstops) hlater⟩
        rw [hlog', hlog, List.append_assoc]
termination_by structural body => body

end

/-- A whole call takes a course. -/
theorem takes_followCall (instructions : List (Instruction (Handler ω))) (arguments : Arguments)
    (world : ω) :
    CallCourse setting instructions (Call.start arguments)
      (setting.followCall instructions arguments world).2.world.log
      (setting.followCall instructions arguments world).1
      (setting.followCall instructions arguments world).2.call := by
  have hinstrumented := setting.instrumented_logged setting.displayName .operation
    (setting.followAll instructions [] 0 .root) ⟨Call.start arguments, ⟨world, []⟩⟩
  rw [followCall]
  generalize setting.logged.instrumented setting.displayName .operation _ _ = ended
    at hinstrumented ⊢
  cases hinstrumented with
  | skipped hbackend hmeets hevents =>
    have hbackend' : setting.config.instrumentationBackend = some _ := hbackend
    exact .skipped hbackend' hmeets hevents
  | @done opening closing world world' ended hopening hclosing hended =>
    obtain ⟨events, hlog, hcourse⟩ := setting.takes_followAll instructions [] 0 .root
      ⟨Call.start arguments, ⟨world, opening⟩⟩
    subst hended
    dsimp only [List.nil_append] at hlog hcourse ⊢
    rw [hlog]
    exact .walked hopening hclosing hcourse

/-- The transcript of a call is empty, or it is what happens on the course that the call takes. -/
theorem transcript_cases (instructions : List (Instruction (Handler ω))) (arguments : Arguments)
    (world : ω) :
    setting.transcript instructions arguments world = []
      ∨ ∃ result after, CallCourse setting instructions (Call.start arguments)
          (setting.transcript instructions arguments world) result after := by
  rw [transcript]
  cases setting.config.validate with
  | error error => exact Or.inl rfl
  | ok u => exact Or.inr ⟨_, _, setting.takes_followCall instructions arguments world⟩

end Setting

end OperationPipeline

import OperationPipeline.Proofs.Location
import OperationPipeline.Walk.Basic

set_option autoImplicit false

/-! # Transcripts

A transcript lists what happens during a call: when the work on each instruction begins and ends,
when handlers are entered and return, what passes between the engine and its backends, and which
faults are recorded. It is kept in the world, where neither handlers nor collaborators can see it:
`Setting.follow` carries out an instruction as `Setting.walk` does, in a world with a log.

Main statement: whoever forgets the log sees the walk (`plain_follow`, `plain_followCall`). -/

namespace OperationPipeline

/-! ## Events -/

/-- Something that happens during a call. -/
inductive Event where
  /-- The work on the instruction at the path begins. -/
  | began (path : Path) (call : Call)
  /-- The work on the instruction at the path ends. -/
  | ended (path : Path) (result : Except EngineError Unit) (call : Call)
  /-- The handler of the step at the path is entered. -/
  | entered (path : Path) (call : Call)
  /-- The handler of the step at the path returns. -/
  | returned (path : Path) (ending : HandlerEnd) (call : Call)
  /-- The transaction backend is called. -/
  | transactionOpened (method : String) (options : Option Json)
  /-- The block of a transaction answers its backend. -/
  | blockAnswered (answer : Except Abort Unit)
  /-- The instrumentation backend is called. -/
  | traceOpened (method traceName : String) (options : Entries Json)
  /-- The instrumentation backend has run its block. -/
  | traceRan
  /-- A fault is recorded as an exception, and handed to the reporter if there is one. -/
  | recorded (fault : Fault)

/-- A world and what has happened in it so far. -/
structure Logged (ω : Type) where
  world : ω
  log : List Event

namespace State

variable {ω : Type}

/-- Adds an event to the log. -/
def note (event : Event) (state : State (Logged ω)) : State (Logged ω) :=
  { state with world := { state.world with log := state.world.log ++ [event] } }

/-- The state without the log. -/
def plain (state : State (Logged ω)) : State ω :=
  ⟨state.call, state.world.world⟩

@[simp] theorem call_plain (state : State (Logged ω)) : state.plain.call = state.call := rfl

@[simp] theorem call_note (event : Event) (state : State (Logged ω)) :
    (state.note event).call = state.call := rfl

@[simp] theorem log_note (event : Event) (state : State (Logged ω)) :
    (state.note event).world.log = state.world.log ++ [event] := rfl

@[simp] theorem plain_note (event : Event) (state : State (Logged ω)) :
    (state.note event).plain = state.plain := rfl

end State

/-! ## Handlers and collaborators in a logged world -/

/-- The handler of the step at the path, with its entry and its return logged. -/
def Handler.logged {ω : Type} (path : Path) (handler : Handler ω) : Handler (Logged ω) :=
  fun state =>
    match handler state.plain with
    | (ending, after) =>
      (ending, ⟨after.call, ⟨after.world, state.world.log ++
        [.entered path state.call, .returned path ending after.call]⟩⟩)

/-- An interaction with the answers of its block logged. -/
def Interaction.logged {ω α β : Type} (note : α → Event) :
    Interaction ω α β → List Event → Interaction (Logged ω) α β
  | .finish answer world, log => .finish answer ⟨world, log⟩
  | .run world resume, log => .run ⟨world, log⟩ fun answer after =>
    (resume answer after.world).logged note (after.log ++ [note answer])
termination_by structural interaction => interaction

/-- A transaction backend with its calls and the answers of its block logged. -/
def TransactionBackend.logged {ω : Type} (backend : TransactionBackend ω) :
    TransactionBackend (Logged ω) :=
  fun method options world =>
    (backend method options world.world).logged .blockAnswered
      (world.log ++ [.transactionOpened method options])

/-- An instrumentation backend with its calls and the runs of its block logged. -/
def Instrumentation.logged {ω : Type} (backend : Instrumentation ω) : Instrumentation (Logged ω) :=
  fun method traceName options world =>
    (backend method traceName options world.world).logged (fun _ => .traceRan)
      (world.log ++ [.traceOpened method traceName options])

namespace Setting

variable {ω α : Type}

/-- The setting in a logged world. -/
def logged (setting : Setting ω) : Setting (Logged ω) :=
  { config :=
      { setting.config with
        transactionBackend := setting.config.transactionBackend.map TransactionBackend.logged
        instrumentationBackend := setting.config.instrumentationBackend.map Instrumentation.logged
        reporter := some fun fault world =>
          (.returned, ⟨setting.report fault world.world, world.log ++ [.recorded fault]⟩) }
    name := setting.name
    typeName := setting.typeName
    clock := fun before after => setting.clock before.world after.world }

/-! ## The walk in a logged world -/

/-- Does the work on the instruction at the path and logs its begin and its end. -/
def noted (path : Path) (work : State (Logged ω) → Except EngineError Unit × State (Logged ω))
    (state : State (Logged ω)) : Except EngineError Unit × State (Logged ω) :=
  match work (state.note (.began path state.call)) with
  | (result, after) => (result, after.note (.ended path result after.call))

mutual

/-- Carries out the instruction at the path, as `walk` does. -/
def follow (setting : Setting ω) : Instruction (Handler ω) → Path → Kind →
    State (Logged ω) → Except EngineError Unit × State (Logged ω)
  | .leaf kind name handler, path, inherited =>
    noted path (setting.logged.around kind name
      (setting.logged.walkLeaf (Scope.leafKind kind inherited) name (handler.logged path)))
  | .block kind body, path, inherited =>
    noted path (setting.logged.around kind (Instruction.block kind body).label fun state =>
      followAll setting body path 0 (Scope.inside kind inherited) state)
termination_by structural instruction => instruction

/-- Carries out the members of the list at the path from the given index on, as `walkAll` does. -/
def followAll (setting : Setting ω) : List (Instruction (Handler ω)) → Path → Nat → Scope →
    State (Logged ω) → Except EngineError Unit × State (Logged ω)
  | [], _, _, _, state => (.ok (), state)
  | instruction :: rest, path, index, scope, state =>
    match follow setting instruction (path ++ [index]) scope.leaf state with
    | (.error error, state) => (.error error, state)
    | (.ok (), state) =>
      if stopsAt scope state then (.ok (), state)
      else followAll setting rest path (index + 1) scope state
termination_by structural body => body

end

/-- Goes on with the later part of a list, unless the earlier part has raised an error or has left
    the call in a state in which the list stops. -/
def goOn (scope : Scope) (later : State ω → Except EngineError Unit × State ω) :
    Except EngineError Unit × State ω → Except EngineError Unit × State ω
  | (.error error, state) => (.error error, state)
  | (.ok (), state) => if stopsAt scope state then (.ok (), state) else later state

theorem goOn_of_stops {scope : Scope} {state : State ω} (h : stopsAt scope state = true)
    (later : State ω → Except EngineError Unit × State ω) :
    goOn scope later (.ok (), state) = (.ok (), state) := if_pos h

theorem goOn_of_not_stops {scope : Scope} {state : State ω} (h : stopsAt scope state = false)
    (later : State ω → Except EngineError Unit × State ω) :
    goOn scope later (.ok (), state) = later state := if_neg (Bool.eq_false_iff.1 h)

/-- The walk of a whole call from its start, inside the instrumentation of the operation. -/
def followCall (setting : Setting ω) (instructions : List (Instruction (Handler ω)))
    (arguments : Arguments) (world : ω) :
    Option (Except EngineError Unit) × State (Logged ω) :=
  setting.logged.instrumented setting.displayName .operation
    (setting.followAll instructions [] 0 .root) ⟨Call.start arguments, ⟨world, []⟩⟩

/-- What happens during a call: nothing if the configuration is not valid. -/
def transcript (setting : Setting ω) (instructions : List (Instruction (Handler ω)))
    (arguments : Arguments) (world : ω) : List Event :=
  match setting.config.validate with
  | .error _ => []
  | .ok () => (setting.followCall instructions arguments world).2.world.log

end Setting

/-! ## Forgetting the log -/

/-- Whether work in a logged world does what the given work does, apart from the log. -/
def Logs {ω α : Type} (logged : State (Logged ω) → α × State (Logged ω))
    (work : State ω → α × State ω) : Prop :=
  ∀ state, ((logged state).1, (logged state).2.plain) = work state.plain

namespace Interaction

variable {ω α β σ : Type}

/-- An interaction in a logged world plays as the interaction does. -/
theorem drive_logged (note : α → Event) (interaction : Interaction ω α β)
    (logged : σ → Logged ω → α × σ × Logged ω) (block : σ → ω → α × σ × ω)
    (hblock : ∀ state world, ((logged state world).1, (logged state world).2.1,
      (logged state world).2.2.world) = block state world.world)
    (log : List Event) (state : σ) :
    (((interaction.logged note log).drive logged state).1,
      ((interaction.logged note log).drive logged state).2.1,
      ((interaction.logged note log).drive logged state).2.2.world)
        = interaction.drive block state := by
  induction interaction generalizing log state with
  | finish answer world => rfl
  | run world resume ih =>
    rw [Interaction.logged, drive_run, drive_run, ← hblock state ⟨world, log⟩]
    exact ih _ _ _ _

end Interaction

namespace Setting

variable {ω α : Type} (setting : Setting ω)

theorem logs_handler (path : Path) (handler : Handler ω) :
    Logs (handler.logged path) handler := fun _ => rfl

theorem logs_noted (path : Path)
    {logged : State (Logged ω) → Except EngineError Unit × State (Logged ω)}
    {work : State ω → Except EngineError Unit × State ω} (h : Logs logged work) :
    Logs (noted path logged) work :=
  fun state => h (state.note (.began path state.call))

/-! ### Steps -/

theorem logs_firstRun {logged : State (Logged ω) → α × State (Logged ω)}
    {work : State ω → α × State ω} (h : Logs logged work) (state : Option α × Call)
    (world : Logged ω) :
    ((firstRun logged state world).1, (firstRun logged state world).2.1,
      (firstRun logged state world).2.2.world) = firstRun work state world.world := by
  obtain ⟨answer, call⟩ := state
  cases answer with
  | some answer => rfl
  | none =>
    have hwork := h ⟨call, world⟩
    dsimp only [State.plain] at hwork
    rw [firstRun, firstRun, ← hwork]

theorem backendAt_logged (level : TraceLevel) :
    setting.logged.backendAt level = (setting.backendAt level).map Instrumentation.logged := by
  by_cases h : level = .operation ∨ setting.config.traceLevel = level <;>
    simp [backendAt, logged, h]

/-- Whatever the level, the backend is the configured one. -/
theorem instrumentationBackend_of_backendAt {setting : Setting ω} {level : TraceLevel}
    {backend : Instrumentation ω} (h : setting.backendAt level = some backend) :
    setting.config.instrumentationBackend = some backend := by
  unfold backendAt at h
  split at h
  · exact h
  · exact nomatch h

theorem logs_instrumented (traceName : String) (level : TraceLevel)
    {logged : State (Logged ω) → α × State (Logged ω)} {work : State ω → α × State ω}
    (h : Logs logged work) :
    Logs (setting.logged.instrumented traceName level logged)
      (setting.instrumented traceName level work) := by
  intro state
  simp only [instrumented, backendAt_logged]
  cases setting.backendAt level with
  | none =>
    rw [Option.map_none, ← h state]
  | some backend =>
    have hdrive := Interaction.drive_logged (fun _ => .traceRan)
      (backend setting.config.instrumentationMethod traceName
        setting.config.instrumentationOptions state.world.world)
      (firstRun logged) (firstRun work) (logs_firstRun h)
      (state.world.log ++ [.traceOpened setting.config.instrumentationMethod traceName
        setting.config.instrumentationOptions]) (none, state.call)
    simp only [State.plain]
    rw [Option.map_some, ← hdrive]
    rfl

theorem logs_settle (step : String) (fault : Fault) :
    Logs (setting.logged.settle step fault) (setting.settle step fault) := by
  intro state
  simp only [settle]
  cases fault.authoring? with
  | none => rfl
  | some error => rfl

theorem plain_traced (step : String) (state : State (Logged ω)) :
    (setting.logged.traced step state).plain = setting.traced step state.plain := by
  have hlogged : setting.logged.config.tracesSteps = setting.config.tracesSteps := rfl
  rw [traced, traced, hlogged]
  by_cases h : setting.config.tracesSteps = true
  · rw [if_pos h, if_pos h]
    rfl
  · rw [if_neg h, if_neg h]

theorem logs_callStep (path : Path) (step : String) (handler : Handler ω) :
    Logs (setting.logged.callStep step (handler.logged path)) (setting.callStep step handler) := by
  have hwork : Logs (fun state => (handler.logged path) (setting.logged.traced step state))
      (fun state => handler (setting.traced step state)) := by
    intro state
    simp only [← plain_traced]
    exact logs_handler path handler _
  intro state
  have h := logs_instrumented setting ("#" ++ step) .step hwork state
  simp only [callStep]
  rw [← h]
  rcases setting.logged.instrumented ("#" ++ step) .step _ state with ⟨ending, after⟩
  cases ending with
  | none => rfl
  | some ending =>
    dsimp only
    cases ending.result with
    | ok answer => rfl
    | error fault =>
      dsimp only
      rw [← logs_settle setting step fault after]
      rcases setting.logged.settle step fault after with ⟨result, settled⟩
      cases result <;> rfl

theorem nest_congr {ω' : Type} (setting' : Setting ω')
    (h : setting'.config.tracesSteps = setting.config.tracesSteps) (step : String)
    (entry : TraceEntry) : setting'.nest step entry = setting.nest step entry := by
  funext outcome
  rw [nest, nest, h]

/-- What is done with an answer depends neither on the world nor on the collaborators, and it
    leaves the world alone. -/
theorem accept_congr {ω' : Type} (setting' : Setting ω')
    (h : setting'.config.tracesSteps = setting.config.tracesSteps) (kind : Kind) (step : String)
    (answer : Answer) (call : Call) (world : ω) (world' : ω') :
    setting'.accept kind step answer ⟨call, world'⟩
      = ((setting.accept kind step answer ⟨call, world⟩).1,
          ⟨(setting.accept kind step answer ⟨call, world⟩).2.call, world'⟩) := by
  cases kind with
  | validate =>
    cases answer <;> simp only [accept, acceptVerdict, proceedWith]
    all_goals split <;> rfl
  | operation =>
    cases answer <;> simp only [accept, acceptOutcome, proceedWith, nest_congr setting setting' h]
    split <;> rfl
  | operations =>
    cases answer <;> simp only [accept, acceptOutcomes, proceedWith, nest_congr setting setting' h]
    split <;> rfl
  | finishIf =>
    simp only [accept, acceptCondition, proceedWith]
    split <;> rfl
  | _ => rfl

theorem logs_accept (kind : Kind) (step : String) (answer : Answer) :
    Logs (setting.logged.accept kind step answer) (setting.accept kind step answer) := by
  intro state
  rw [accept_congr setting setting.logged rfl kind step answer state.call state.world.world]
  exact (accept_congr setting setting rfl kind step answer state.call state.world.world
    state.world.world).symm

theorem logs_walkLeaf (path : Path) (kind : Kind) (step : String) (handler : Handler ω) :
    Logs (setting.logged.walkLeaf kind step (handler.logged path))
      (setting.walkLeaf kind step handler) := by
  intro state
  simp only [walkLeaf, withAnswer]
  rw [← logs_callStep setting path step handler state]
  rcases setting.logged.callStep step (handler.logged path) state with ⟨result, after⟩
  cases result with
  | error error => rfl
  | ok answer =>
    cases answer with
    | none => rfl
    | some answer => exact logs_accept setting kind step answer after

/-! ### Wrappers -/

theorem logs_runTransaction
    {logged : State (Logged ω) → Except EngineError Unit × State (Logged ω)}
    {work : State ω → Except EngineError Unit × State ω} (h : Logs logged work) :
    Logs (setting.logged.runTransaction logged) (setting.runTransaction work) := by
  intro state
  simp only [runTransaction, Setting.logged]
  cases setting.config.transactionBackend with
  | none => rfl
  | some backend =>
    have hblock : ∀ (call : Call) (world : Logged ω),
        ((transactionBlock logged call world).1, (transactionBlock logged call world).2.1,
          (transactionBlock logged call world).2.2.world)
            = transactionBlock work call world.world := by
      intro call world
      have hwork := h ⟨call, world⟩
      dsimp only [State.plain] at hwork
      rw [transactionBlock, transactionBlock, ← hwork]
    have hdrive := Interaction.drive_logged .blockAnswered
      (backend setting.config.transactionMethod setting.config.transactionOptions
        state.world.world)
      (transactionBlock logged) (transactionBlock work) hblock
      (state.world.log ++ [.transactionOpened setting.config.transactionMethod
        setting.config.transactionOptions]) state.call
    dsimp only [Option.map_some, State.plain, TransactionBackend.logged]
    rw [← hdrive]
    rcases Interaction.drive _ _ state.call with ⟨last, call, world⟩
    cases last with
    | ok u => rfl
    | error abort =>
      dsimp only
      cases abort.fault? with
      | none => rfl
      | some fault => exact logs_settle setting transactionStep fault ⟨call, world⟩

theorem logs_runBenchmark (label : String)
    {logged : State (Logged ω) → Except EngineError Unit × State (Logged ω)}
    {work : State ω → Except EngineError Unit × State ω} (h : Logs logged work) :
    Logs (setting.logged.runBenchmark label logged) (setting.runBenchmark label work) := by
  intro state
  simp only [runBenchmark]
  rw [← h state]
  rcases logged state with ⟨result, after⟩
  cases result <;> rfl

theorem logs_around (kind : Kind) (label : String)
    {logged : State (Logged ω) → Except EngineError Unit × State (Logged ω)}
    {work : State ω → Except EngineError Unit × State ω} (h : Logs logged work) :
    Logs (setting.logged.around kind label logged) (setting.around kind label work) := by
  cases kind with
  | transaction => exact logs_runTransaction setting h
  | benchmark => exact logs_runBenchmark setting label h
  | _ => exact h

/-! ### The tree -/

mutual

theorem logs_follow : (instruction : Instruction (Handler ω)) → (path : Path) →
    (inherited : Kind) →
    Logs (setting.follow instruction path inherited) (setting.walk instruction inherited)
  | .leaf kind name handler, path, inherited =>
    logs_noted path (logs_around setting kind name
      (logs_walkLeaf setting path (Scope.leafKind kind inherited) name handler))
  | .block kind body, path, inherited =>
    logs_noted path (logs_around setting kind _
      (logs_followAll body path 0 (Scope.inside kind inherited)))
termination_by structural instruction => instruction

theorem logs_followAll : (body : List (Instruction (Handler ω))) → (path : Path) →
    (index : Nat) → (scope : Scope) →
    Logs (setting.followAll body path index scope) (setting.walkAll body scope)
  | [], _, _, _ => fun _ => rfl
  | instruction :: rest, path, index, scope => by
    intro state
    rw [walkAll_cons, ← logs_follow instruction (path ++ [index]) scope.leaf state, followAll]
    rcases setting.follow instruction (path ++ [index]) scope.leaf state with ⟨result, after⟩
    cases result with
    | error error => rfl
    | ok u =>
      dsimp only
      rw [show stopsAt scope after.plain = stopsAt scope after from rfl]
      split
      · rfl
      · exact logs_followAll rest path (index + 1) scope after
termination_by structural body => body

end

/-- An instruction that is followed does what the walk does. -/
theorem plain_follow (instruction : Instruction (Handler ω)) (path : Path) (inherited : Kind)
    (state : State (Logged ω)) :
    ((setting.follow instruction path inherited state).1,
      (setting.follow instruction path inherited state).2.plain)
        = setting.walk instruction inherited state.plain :=
  logs_follow setting instruction path inherited state

/-- A call that is followed ends as the call does. -/
theorem plain_followCall (instructions : List (Instruction (Handler ω))) (arguments : Arguments)
    (world : ω) (h : setting.config.validate = .ok ()) :
    setting.perform instructions arguments world
      = concluded ((setting.followCall instructions arguments world).1,
          (setting.followCall instructions arguments world).2.plain) := by
  rw [perform, h]
  dsimp only
  rw [show (⟨Call.start arguments, world⟩ : State ω)
    = State.plain ⟨Call.start arguments, ⟨world, []⟩⟩ from rfl,
    ← logs_instrumented setting setting.displayName .operation
      (logs_followAll setting instructions [] 0 .root)]
  rfl

end Setting

end OperationPipeline

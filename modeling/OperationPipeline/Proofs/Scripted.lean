import OperationPipeline.Proofs.Histories
import OperationPipeline.Script.Run

set_option autoImplicit false

/-! # Scripted operations keep to the engine

Whatever a scripted step or a scripted collaborator does to the registry, it does through the
functions of an engine. At each level this is the engine of the level below, which knows the same
operations, so what is an access there is one at every level (`Engine.Reaches.of_catalogue`). Hence
the engine of scripted operations is orderly, and what holds of histories holds of all that scripted
operations do (`Script.orderly_engineAt`). -/

namespace OperationPipeline

/-! ## Engines for the same operations -/

namespace Engine

variable {κ η τ ι ρ ω : Type} [DecidableEq κ] {engine engine' : Engine κ η τ ι ρ ω}
  {start host : Host κ η τ ι ρ ω} {access : Access κ η τ ι ρ}

/-- What an access does depends on the operations alone, not on their handlers. -/
theorem Step.of_catalogue (hcatalogue : engine.catalogue = engine'.catalogue)
    (h : engine.Step start access host) : engine'.Step start access host := by
  cases engine with
  | mk catalogue _ _ _ _ _ =>
    cases engine' with
    | mk catalogue' _ _ _ _ _ =>
      obtain rfl : catalogue = catalogue' := hcatalogue
      cases h with
      | declare key script => exact .declare key script start
      | instructions key => exact .instructions key start
      | outline key => exact .outline key start
      | isFrozen key => exact .isFrozen key start
      | config key => exact .config key start
      | configure key edit => exact .configure key edit start
      | configureGlobal edit => exact .configureGlobal edit start
      | resetGlobal => exact .resetGlobal start
      | call key => exact .call key start

theorem Reaches.of_catalogue (hcatalogue : engine.catalogue = engine'.catalogue)
    (h : engine.Reaches start host) : engine'.Reaches start host := by
  obtain ⟨accesses, hhistory⟩ := h
  refine ⟨accesses, ?_⟩
  induction hhistory with
  | nil => exact .nil
  | outside _ world ih => exact ih.outside world
  | snoc _ hstep ih => exact ih.snoc (hstep.of_catalogue hcatalogue)

theorem Reaches.call (hengine : engine.Orderly) (key : κ) (arguments : Arguments)
    (host : Host κ η τ ι ρ ω) : engine.Reaches host (engine.call key arguments host).2 := by
  obtain ⟨inner, hcall⟩ := History.nil.call hengine key arguments
  exact ⟨_, hcall⟩

end Engine

namespace Script

variable {engine : ScriptEngine}

/-! ## Collaborators -/

theorem reaches_note (stage : Stage) (entry : Entry) :
    engine.Reaches stage (stage.note entry) :=
  .outside stage _

theorem reaches_noteEnd (answer : Except Abort Unit) (stage : Stage) :
    engine.Reaches stage (noteEnd answer stage) := by
  cases answer with
  | ok u => exact reaches_note stage _
  | error abort => exact reaches_note stage _

theorem TransactionStub.drifts_play (stub : TransactionStub) (method : String)
    (options : Option Json) (stage : Stage) :
    (stub.play method options stage).Drifts engine.Reaches stage := by
  cases stub with
  | passthrough => exact ⟨reaches_note stage _, fun _ after => .refl after⟩
  | failing fault => exact reaches_note stage _
  | idle => exact reaches_note stage _
  | once closing =>
    exact ⟨reaches_note stage _, fun answer after => reaches_noteEnd answer after⟩
  | twice =>
    refine ⟨reaches_note stage _, fun answer after => ?_⟩
    cases answer with
    | ok u => exact ⟨.refl after, fun answer after => reaches_noteEnd answer after⟩
    | error abort => exact reaches_noteEnd _ after

theorem InstrumentationStub.drifts_play (stub : InstrumentationStub) (method traceName : String)
    (options : Entries Json) (stage : Stage) :
    (stub.play method traceName options stage).Drifts engine.Reaches stage := by
  cases stub with
  | tracing => exact ⟨.outside stage _, fun _ after => reaches_note after _⟩
  | recording => exact ⟨reaches_note stage _, fun _ after => reaches_note after _⟩
  | skipping skipped =>
    rw [InstrumentationStub.play]
    split
    · exact .outside stage _
    · exact ⟨reaches_note stage _, fun _ after => reaches_note after _⟩
  | twice =>
    exact ⟨reaches_note stage _, fun _ after => ⟨.refl after, fun _ last => reaches_note last _⟩⟩

theorem ReporterStub.reaches_play (stub : ReporterStub) (fault : Fault) (stage : Stage) :
    engine.Reaches stage (stub.play fault stage).2 := by
  cases stub with
  | recording => exact reaches_note stage _
  | panicking => exact reaches_note stage _
  | tracing => exact reaches_note stage _

/-! ## Steps -/

theorem CallSpec.drifts_run (hengine : engine.Orderly) (spec : CallSpec) :
    Drifts engine.Reaches (spec.run engine) :=
  fun state => .call hengine spec.operation (spec.argumentsFrom state.call) state.world

theorem drifts_withOutcome (hengine : engine.Orderly) (spec : CallSpec)
    {proceed : Outcome → State Stage → Except Halt Unit × State Stage}
    (hproceed : ∀ outcome, Drifts engine.Reaches (proceed outcome)) :
    Drifts engine.Reaches (withOutcome engine spec proceed) := by
  intro state
  have hcalled := spec.drifts_run hengine state
  rw [withOutcome]
  generalize spec.run engine state = called at hcalled ⊢
  obtain ⟨answer, after⟩ := called
  cases answer with
  | error fault => exact hcalled
  | ok outcome => exact hcalled.trans (hproceed outcome after)

mutual

theorem drifts_runAction (hengine : engine.Orderly) :
    (action : Action) → Drifts engine.Reaches (runAction engine action)
  | .edit _ => fun state => .refl state.world
  | .finish => fun state => .refl state.world
  | .outputContext _ => fun state => .refl state.world
  | .outputRecord _ => fun state => .refl state.world
  | .outputParam _ => fun state => .refl state.world
  | .outputDependency name type => by
    intro state
    rw [runAction]
    cases state.call.arguments.dependencies.require name type with
    | ok value => exact .refl state.world
    | error fault => exact .refl state.world
  | .askContext request => by
    intro state
    rw [runAction]
    rcases request.reply state.call.context with ⟨reply | reply, context⟩
    · exact .refl state.world
    · exact reaches_note state.world _
  | .note _ => fun state => reaches_note state.world _
  | .noteState => fun state => reaches_note state.world _
  | .fail _ => fun state => .refl state.world
  | .panic _ => fun state => .refl state.world
  | .call spec => drifts_withOutcome hengine spec fun _ state => reaches_note state.world _
  | .tryCall spec => by
    intro state
    have hcalled := Engine.Reaches.call hengine spec.operation (spec.argumentsFrom state.call)
      state.world
    rw [runAction]
    generalize engine.call spec.operation (spec.argumentsFrom state.call) state.world = called
      at hcalled ⊢
    obtain ⟨answer, after⟩ := called
    cases answer with
    | error error => exact hcalled.trans (reaches_note after _)
    | ok outcome => exact hcalled.trans (reaches_note after _)
  | .outputCall spec => by
    refine drifts_withOutcome hengine spec fun outcome state => ?_
    cases outcome.checkedOutput with
    | ok value => exact .refl state.world
    | error error => exact .refl state.world
  | .mergeCall spec => drifts_withOutcome hengine spec fun _ state => .refl state.world
  | .declare operation script => fun state =>
    .single (.declare operation (Plan.declareAll script) state.world)
  | .configure operation changes => fun state =>
    .single (.configure operation (Config.applyAll changes) state.world)
  | .configureGlobal changes => fun state =>
    .single (.configureGlobal (Config.applyAll changes) state.world)
  | .choose question yes no => by
    intro state
    rw [runAction]
    split
    · exact drifts_runActions hengine yes state
    · exact drifts_runActions hengine no state
termination_by structural action => action

theorem drifts_runActions (hengine : engine.Orderly) :
    (actions : List Action) → Drifts engine.Reaches (runActions engine actions)
  | [] => fun state => .refl state.world
  | action :: rest => by
    intro state
    have hfirst := drifts_runAction hengine action state
    rw [runActions]
    generalize runAction engine action state = ended at hfirst ⊢
    obtain ⟨answer, after⟩ := ended
    cases answer with
    | error halt => exact hfirst
    | ok u => exact hfirst.trans (drifts_runActions hengine rest after)
termination_by structural actions => actions

end

theorem OutcomeSource.drifts_collect (hengine : engine.Orderly) (sources : List OutcomeSource) :
    Drifts engine.Reaches (OutcomeSource.collect engine sources) := by
  induction sources with
  | nil => exact fun state => .refl state.world
  | cons source rest ih =>
    intro state
    cases source with
    | given outcome => exact ih state
    | called spec =>
      have hcalled := spec.drifts_run hengine state
      rw [OutcomeSource.collect]
      generalize spec.run engine state = called at hcalled ⊢
      obtain ⟨answer, after⟩ := called
      cases answer with
      | error fault => exact hcalled
      | ok outcome => exact hcalled.trans (ih after)

theorem AnswerSpec.drifts_answer (hengine : engine.Orderly) (spec : AnswerSpec) :
    Drifts engine.Reaches (spec.answer engine) := by
  intro state
  cases spec with
  | called spec => exact spec.drifts_run hengine state
  | outcomes sources => exact OutcomeSource.drifts_collect hengine sources state
  | _ => exact .refl state.world

theorem drifts_runScript (hengine : engine.Orderly) (actions : List Action) (spec : AnswerSpec) :
    Drifts engine.Reaches (runScript engine actions spec) := by
  intro state
  have hran := drifts_runActions hengine actions state
  rw [runScript]
  generalize runActions engine actions state = ran at hran ⊢
  obtain ⟨answer, mid⟩ := ran
  cases answer with
  | error halt => exact hran
  | ok u =>
    have hanswered := spec.drifts_answer hengine mid
    dsimp only
    generalize spec.answer engine mid = answered at hanswered ⊢
    obtain ⟨answer, after⟩ := answered
    cases answer <;> exact hran.trans hanswered

theorem Step.drifts_run (hengine : engine.Orderly) (read : Json → List Action × AnswerSpec)
    (step : Step) : Drifts engine.Reaches (step.run read engine) := by
  intro state
  cases step with
  | script actions spec => exact drifts_runScript hengine actions spec state
  | fromParam name => exact drifts_runScript hengine _ _ state

/-! ## The engine -/

variable (read : Json → List Action × AnswerSpec) (catalogue : String → ScriptType)

theorem catalogue_engineAt (depth : Nat) :
    (engineAt read catalogue depth).catalogue = catalogue := by
  cases depth <;> rfl

/-- However deep calls can be nested, scripted operations keep to the engine. -/
theorem orderly_engineAt (depth : Nat) : (engineAt read catalogue depth).Orderly := by
  induction depth with
  | zero =>
    exact {
      handler := fun _ state => .refl state.world
      transaction := TransactionStub.drifts_play
      instrumentation := InstrumentationStub.drifts_play
      reporter := ReporterStub.reaches_play }
  | succ depth ih =>
    have hcatalogue := catalogue_engineAt read catalogue depth
    exact {
      handler := fun step state => (step.drifts_run ih read state).of_catalogue hcatalogue
      transaction := TransactionStub.drifts_play
      instrumentation := InstrumentationStub.drifts_play
      reporter := ReporterStub.reaches_play }

end Script

end OperationPipeline

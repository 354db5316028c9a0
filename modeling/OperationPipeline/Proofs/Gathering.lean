import OperationPipeline.Proofs.Findings
import OperationPipeline.Proofs.Stopping

set_option autoImplicit false

/-! # Validate blocks

A `validate` block runs all its steps, whatever they find, and gathers what they found. Here its
steps are plain ones whose handlers leave the call alone and answer as validations do. What one such
step does is to gather its finding (`Stepped.gathers`), and a block that goes on after failures does
so for all of them in turn (`Course.gathers`).

Main statement: `Setting.validateBlock_gathers`. -/

namespace OperationPipeline

variable {ω : Type} {setting : Setting ω}

/-! ## One step -/

theorem Event.returns_cons_of_none {event : Event} (h : event.return? = none)
    (events : List Event) : returns (event :: events) = returns events :=
  List.filterMap_cons_none h

theorem Event.returns_of_trace {events : List Event} (h : ∀ event ∈ events, event.IsTrace) :
    returns events = [] := by
  refine List.filterMap_eq_nil_iff.2 fun event hevent => ?_
  have htrace := h event hevent
  cases event with
  | returned _ _ _ => exact htrace.elim
  | _ => rfl

theorem Settled.returns {step : String} {fault : Fault} {before after : Call}
    {events : List Event} {result : Except EngineError Unit}
    (h : Settled setting step fault before events result after) : Event.returns events = [] := by
  cases h <;> rfl

/-- The answer of a validation is gathered. -/
theorem Setting.Accepts.gathers {step : String} {before after : Call} {ending : HandlerEnd}
    {answer : Answer} {result : Except EngineError Unit}
    (h : setting.Accepts step before .validate answer result after)
    (hanswer : ending.result = .ok answer) (hfinding : ending.IsFinding) :
    result = .ok () ∧ after = before.gather setting.name (step, ending) := by
  obtain rfl := HandlerEnd.eq_answered hanswer
  cases h with
  | rejected hrejected =>
    -- only the two shapes of a validation are not rejected
    cases answer with
    | verdict verdict => exact nomatch hrejected
    | outcome outcome => exact nomatch hrejected
    | _ => exact hfinding.elim
  | ignored hvalidate => exact absurd rfl hvalidate
  | passed hsuccess =>
    simp [Call.gather, Outcome.gather, Context.recordFound, HandlerEnd.record?, HandlerEnd.result,
      Call.recordOutput, hsuccess]
  | failed hfailure =>
    simp [Call.gather, Outcome.gather, Context.recordFound, HandlerEnd.record?, HandlerEnd.result,
      Call.mapOutcome, Outcome.isSuccess, hfailure]
  | verdictPassed hsuccess =>
    simp [Call.gather, Outcome.gather, Context.recordFound, HandlerEnd.record?, HandlerEnd.result,
      Call.recordOutput, hsuccess]
  | verdictFailed hfailure =>
    simp [Call.gather, Outcome.gather, Context.recordFound, HandlerEnd.record?, HandlerEnd.result,
      Call.mapOutcome, hfailure]

/-- The fault of a validation is gathered. -/
theorem Settled.gathers {step : String} {fault : Fault} {before after : Call}
    {events : List Event} {ending : HandlerEnd} {result : Except EngineError Unit}
    (h : Settled setting step fault before events result after)
    (hfault : ending.result = .error fault) (hfinding : ending.IsFinding) :
    result = .ok () ∧ after = before.gather setting.name (step, ending) := by
  cases h with
  | raised hauthoring =>
    rw [HandlerEnd.IsFinding, hfault] at hfinding
    exact nomatch hauthoring.symm.trans hfinding
  | recorded hauthoring =>
    simp [Call.gather, Outcome.gather, Context.recordFound, HandlerEnd.record?, hfault,
      Call.mapOutcome]

/-- A validation whose handler is entered is gathered. -/
theorem Stepped.gathers {path : Path} {step : String} {handler : Handler ω} {before after : Call}
    {events : List Event} {result : Except EngineError Unit}
    (h : Stepped setting path .validate step handler before events result after)
    (hvalidates : handler.Validates) (hentered : ∃ call, .entered path call ∈ events) :
    ∃ ending, result = .ok () ∧ Event.enteredPaths events = [path]
      ∧ Event.returns events = [(path, ending)]
      ∧ after = (setting.tracedCall step before).gather setting.name (step, ending) := by
  have hpaths : Event.enteredPaths events = [path] := by
    rcases h.enteredPaths with hpaths | ⟨hnone, -⟩
    · exact hpaths
    · obtain ⟨call, hcall⟩ := hentered
      have hmem : path ∈ Event.enteredPaths events := List.mem_filterMap.2 ⟨_, hcall, rfl⟩
      rw [hnone] at hmem
      exact nomatch hmem
  cases h with
  | skipped hbackend hmeets hevents =>
    obtain ⟨call, hcall⟩ := hentered
    exact (hevents _ hcall).elim
  | @answered mid _ opening closing ending _ _ hopening hclosing hhandler hanswer haccepts =>
    obtain ⟨rfl, hfinding⟩ := hvalidates.leads hhandler
    obtain ⟨hresult, hafter⟩ := haccepts.gathers hanswer hfinding
    refine ⟨ending, hresult, hpaths, ?_, hafter⟩
    rw [Event.returns_append, Event.returns_of_trace hopening]
    exact congrArg ((path, ending) :: ·) (Event.returns_of_trace hclosing)
  | @faulted mid _ opening closing settled ending _ _ hopening hclosing hhandler hfault hsettled =>
    obtain ⟨rfl, hfinding⟩ := hvalidates.leads hhandler
    obtain ⟨hresult, hafter⟩ := hsettled.gathers hfault hfinding
    refine ⟨ending, hresult, hpaths, ?_, hafter⟩
    have hlater : Event.returns (closing ++ settled) = [] := by
      rw [Event.returns_append, Event.returns_of_trace hclosing, hsettled.returns, List.nil_append]
    rw [Event.returns_append, Event.returns_of_trace hopening]
    exact congrArg ((path, ending) :: ·) hlater

/-! ## Plain steps -/

/-- Plain steps. -/
def plainSteps (steps : List (String × Handler ω)) : List (Instruction (Handler ω)) :=
  steps.map fun (name, handler) => .leaf .step name handler

/-- The paths to the members of the list at the path, from the given index on. -/
def Path.members (path : Path) (index count : Nat) : List Path :=
  (List.range' index count).map fun place => path ++ [place]

/-- Whether no step of the list at the path is skipped by the instrumentation: if the work on a step
    begins, its handler is entered. -/
def Event.RunsSteps (events : List Event) (path : Path) : Prop :=
  ∀ place before, .began (path ++ [place]) before ∈ events →
    ∃ call, .entered (path ++ [place]) call ∈ events

/-- A step that nothing is wrapped around is noted where it begins and ends. -/
theorem Course.stepped_of_leaf {path : Path} {kind inherited : Kind} {step : String}
    {handler : Handler ω} {before after : Call} {events : List Event}
    {result : Except EngineError Unit}
    (h : Course setting (.node path (.leaf kind step handler) inherited) before events result after)
    (htransaction : kind ≠ .transaction) (hbenchmark : kind ≠ .benchmark) :
    ∃ inner, events = .began path before :: (inner ++ [.ended path result after])
      ∧ Stepped setting path (Scope.leafKind kind inherited) step handler before inner result
        after := by
  cases h with
  | node h =>
    cases h with
    | plain _ _ h =>
      cases h with
      | leaf h => exact ⟨_, rfl, h⟩
    | untimed hkind => exact absurd hkind hbenchmark
    | timed hkind => exact absurd hkind hbenchmark
    | unbacked hkind => exact absurd hkind htransaction
    | backed hkind => exact absurd hkind htransaction

theorem Course.gathers_node {path : Path} {step : String} {handler : Handler ω}
    {before after : Call} {events : List Event} {result : Except EngineError Unit}
    (h : Course setting (.node path (.leaf .step step handler) .validate) before events result
      after)
    (hvalidates : handler.Validates) (hentered : ∃ call, .entered path call ∈ events) :
    ∃ ending, result = .ok () ∧ Event.enteredPaths events = [path]
      ∧ Event.returns events = [(path, ending)]
      ∧ after = (setting.tracedCall step before).gather setting.name (step, ending) := by
  obtain ⟨inner, rfl, hstepped⟩ := h.stepped_of_leaf nofun nofun
  have hinner : ∃ call, .entered path call ∈ inner := by
    obtain ⟨call, hcall⟩ := hentered
    simp only [List.mem_cons, List.mem_append, List.not_mem_nil, reduceCtorEq, false_or,
      or_false] at hcall
    exact ⟨call, hcall⟩
  obtain ⟨ending, hresult, hpaths, hreturns, hafter⟩ := hstepped.gathers hvalidates hinner
  refine ⟨ending, hresult, ?_, ?_, hafter⟩
  · rw [Event.enteredPaths_cons_of_none rfl, Event.enteredPaths_append, hpaths]
    rfl
  · rw [Event.returns_cons_of_none rfl, Event.returns_append, hreturns]
    rfl

/-- The work on a member of a list belongs to no other member. -/
theorem Course.place_of_members {path : Path} {index place : Nat}
    {body : List (Instruction (Handler ω))} {scope : Scope} {before after : Call}
    {events : List Event} {result : Except EngineError Unit}
    (h : Course setting (.members path index body scope) before events result after)
    {event : Event} (hevent : event ∈ events) (hpath : event.path? = some (path ++ [place])) :
    index ≤ place := by
  obtain ⟨other, hother, hprefix⟩ := h.covers hevent hpath
  rwa [← Instruction.place_unique hprefix List.prefix_rfl]

theorem Course.place_of_node {path : Path} {index place : Nat}
    {instruction : Instruction (Handler ω)} {inherited : Kind} {before after : Call}
    {events : List Event} {result : Except EngineError Unit}
    (h : Course setting (.node (path ++ [index]) instruction inherited) before events result after)
    {event : Event} (hevent : event ∈ events) (hpath : event.path? = some (path ++ [place])) :
    place = index :=
  Instruction.place_unique List.prefix_rfl (h.covers hevent hpath)

/-- What begins in a member of a list is entered in it, and what begins later is entered later. -/
theorem Course.runsSteps_parts {path : Path} {index : Nat} {instruction : Instruction (Handler ω)}
    {rest : List (Instruction (Handler ω))} {scope : Scope} {before mid after : Call}
    {head later : List Event} {headResult result : Except EngineError Unit}
    (h : Course setting (.node (path ++ [index]) instruction scope.leaf) before head headResult mid)
    (hlater : Course setting (.members path (index + 1) rest scope) mid later result after)
    (hruns : Event.RunsSteps (head ++ later) path) :
    Event.RunsSteps head path ∧ Event.RunsSteps later path := by
  have hapart : ∀ {place : Nat} {event event' : Event}, event ∈ head →
      event.path? = some (path ++ [place]) → event' ∈ later →
      event'.path? ≠ some (path ++ [place]) := by
    intro place event event' hevent hpath hevent' hpath'
    obtain rfl := h.place_of_node hevent hpath
    exact Nat.not_succ_le_self place (hlater.place_of_members hevent' hpath')
  constructor
  · intro place between hbetween
    obtain ⟨call, hcall⟩ := hruns place between (List.mem_append_left _ hbetween)
    rcases List.mem_append.1 hcall with hcall | hcall
    · exact ⟨call, hcall⟩
    · exact absurd rfl (hapart hbetween rfl hcall)
  · intro place between hbetween
    obtain ⟨call, hcall⟩ := hruns place between (List.mem_append_right _ hbetween)
    rcases List.mem_append.1 hcall with hcall | hcall
    · exact absurd rfl (hapart hcall rfl hbetween)
    · exact ⟨call, hcall⟩

/-- Whether all of the steps from the given index on were run, in order and without an error, and
    what their handlers found was gathered. -/
structure Gathered (setting : Setting ω) (path : Path) (index : Nat)
    (steps : List (String × Handler ω)) (before : Call) (events : List Event)
    (result : Except EngineError Unit) (after : Call) : Prop where
  result : result = .ok ()
  entered : Event.enteredPaths events = path.members index steps.length
  returned : (Event.returns events).map Prod.fst = path.members index steps.length
  after : after = setting.gatherAll
    ((steps.map Prod.fst).zip ((Event.returns events).map Prod.snd)) before

/-- A list of validations that goes on after failures gathers what all of them find. -/
theorem Course.gathers {steps : List (String × Handler ω)}
    (hvalidates : ∀ step ∈ steps, step.2.Validates) {path : Path} {index : Nat}
    {before after : Call} {events : List Event} {result : Except EngineError Unit}
    (h : Course setting (.members path index (plainSteps steps) ⟨.finishedOnly, .validate⟩) before
      events result after)
    (hrunning : before.finished = false) (hruns : Event.RunsSteps events path) :
    Gathered setting path index steps before events result after := by
  induction steps generalizing index before events with
  | nil =>
    rw [plainSteps, List.map_nil] at h
    cases h with
    | nil => exact ⟨rfl, rfl, rfl, rfl⟩
  | cons step rest ih =>
    obtain ⟨hhandler, hrest⟩ := List.forall_mem_cons.1 hvalidates
    rw [plainSteps, List.map_cons] at h
    have hstep : ∀ {head : List Event} {outcome : Except EngineError Unit} {mid : Call},
        Course setting (.node (path ++ [index]) (.leaf .step step.1 step.2) .validate) before head
          outcome mid → Event.RunsSteps head path →
        ∃ ending, outcome = .ok () ∧ Event.enteredPaths head = [path ++ [index]]
          ∧ Event.returns head = [(path ++ [index], ending)]
          ∧ mid = (setting.tracedCall step.1 before).gather setting.name (step.1, ending) := by
      intro head outcome mid hnode hruns
      refine hnode.gathers_node hhandler ?_
      obtain ⟨inner, rfl, -⟩ := hnode.stepped_of_leaf nofun nofun
      exact hruns index before List.mem_cons_self
    cases h with
    | raised h =>
      obtain ⟨_, hresult, -⟩ := hstep h hruns
      exact nomatch hresult
    | stopped h hstops =>
      obtain ⟨_, -, -, -, rfl⟩ := hstep h hruns
      have hfinished : (setting.tracedCall step.1 before).finished = true := hstops
      rw [Setting.finished_tracedCall, hrunning] at hfinished
      exact nomatch hfinished
    | next h hstops hlater =>
      obtain ⟨hhead, htail⟩ := h.runsSteps_parts hlater hruns
      obtain ⟨ending, -, hpaths, hreturns, rfl⟩ := hstep h hhead
      obtain ⟨hresult, hentered, hreturned, hafter⟩ := ih hrest hlater
        ((Setting.finished_tracedCall step.1 before).trans hrunning) htail
      constructor
      · exact hresult
      · rw [Event.enteredPaths_append, hpaths, hentered]
        rfl
      · rw [Event.returns_append, hreturns, List.map_append, hreturned]
        rfl
      · rw [Event.returns_append, hreturns]
        exact hafter

/-- No step is skipped if the instrumentation always runs its block. -/
theorem Course.runsSteps {steps : List (String × Handler ω)} {path : Path} {index : Nat}
    {scope : Scope} {before after : Call} {events : List Event} {result : Except EngineError Unit}
    (h : Course setting (.members path index (plainSteps steps) scope) before events result after)
    (hruns : setting.RunsInstrumented) : Event.RunsSteps events path := by
  have hnode : ∀ {index inherited step before events result after} {handler : Handler ω},
      Course setting (.node (path ++ [index]) (.leaf .step step handler) inherited) before events
        result after → Event.RunsSteps events path := by
    intro index inherited step before events result after handler h place between hbetween
    obtain rfl := h.place_of_node hbetween rfl
    obtain ⟨inner, rfl, hstepped⟩ := h.stepped_of_leaf nofun nofun
    rcases hstepped.enteredPaths with hentered | ⟨-, backend, hbackend, hmeets⟩
    · have hmem : path ++ [place] ∈ Event.enteredPaths inner := by
        rw [hentered]
        exact List.mem_singleton_self _
      obtain ⟨event, hevent, hpath⟩ := List.mem_filterMap.1 hmem
      cases event with
      | entered other call =>
        obtain rfl := Option.some.inj hpath
        exact ⟨call, List.mem_cons_of_mem _ (List.mem_append_left _ hevent)⟩
      | _ => exact nomatch hpath
    · exact (hruns.not_skipped hbackend hmeets).elim
  induction steps generalizing index before events with
  | nil =>
    rw [plainSteps, List.map_nil] at h
    cases h with
    | nil => exact fun _ _ hbetween => nomatch hbetween
  | cons step rest ih =>
    rw [plainSteps, List.map_cons] at h
    cases h with
    | raised h => exact hnode h
    | stopped h hstops => exact hnode h
    | next h hstops hlater =>
      intro place between hbetween
      rcases List.mem_append.1 hbetween with hbetween | hbetween
      · obtain ⟨call, hcall⟩ := hnode h place between hbetween
        exact ⟨call, List.mem_append_left _ hcall⟩
      · obtain ⟨call, hcall⟩ := ih hlater place between hbetween
        exact ⟨call, List.mem_append_right _ hcall⟩

/-! ## Whole blocks -/

theorem Event.RunsSteps.inner {events : List Event} {path : Path} {before after : Call}
    {result : Except EngineError Unit}
    (h : RunsSteps (.began path before :: (events ++ [.ended path result after])) path) :
    RunsSteps events path := by
  intro place between hbetween
  obtain ⟨call, hcall⟩ := h place between (List.mem_cons_of_mem _ (List.mem_append_left _ hbetween))
  simp only [List.mem_cons, List.mem_append, List.not_mem_nil, reduceCtorEq, false_or,
    or_false] at hcall
  exact ⟨call, hcall⟩

theorem Course.gathers_block {steps : List (String × Handler ω)}
    (hvalidates : ∀ step ∈ steps, step.2.Validates) {path : Path} {inherited : Kind}
    {before after : Call} {events : List Event} {result : Except EngineError Unit}
    (h : Course setting (.node path (.block .validate (plainSteps steps)) inherited) before events
      result after)
    (hrunning : before.finished = false) (hruns : Event.RunsSteps events path) :
    Gathered setting path 0 steps before events result after := by
  have htransaction : Kind.validate ≠ .transaction := nofun
  have hbenchmark : Kind.validate ≠ .benchmark := nofun
  cases h with
  | @node _ _ _ _ _ inner _ h =>
    obtain ⟨hresult, hentered, hreturned, hafter⟩ :=
      (h.members_of_wrapped htransaction hbenchmark).gathers hvalidates hrunning hruns.inner
    have hreturns : Event.returns (.began path before :: (inner ++ [.ended path result after]))
        = Event.returns inner := by
      rw [Event.returns_cons_of_none rfl, Event.returns_append]
      exact List.append_nil _
    constructor
    · exact hresult
    · rw [Event.enteredPaths_cons_of_none rfl, Event.enteredPaths_append, hentered]
      exact List.append_nil _
    · rw [hreturns, hreturned]
    · rw [hreturns]
      exact hafter

namespace Setting

/-- The steps of a followed block are run if the instrumentation always runs its block. -/
theorem runsSteps_follow (hruns : setting.RunsInstrumented) {kind : Kind}
    (htransaction : kind ≠ .transaction) (hbenchmark : kind ≠ .benchmark)
    (steps : List (String × Handler ω)) (path : Path) (inherited : Kind) (call : Call) (world : ω) :
    Event.RunsSteps (setting.follow (.block kind (plainSteps steps)) path inherited
      ⟨call, ⟨world, []⟩⟩).2.world.log path := by
  obtain ⟨events, hlog, hcourse⟩ := setting.takes_follow (.block kind (plainSteps steps)) path
    inherited ⟨call, ⟨world, []⟩⟩
  rw [hlog, List.nil_append]
  cases hcourse with
  | node h =>
    intro place between hbetween
    have hmembers := h.members_of_wrapped htransaction hbenchmark
    rcases List.mem_cons.1 hbetween with hbetween | hbetween
    · have hpath : path ++ [place] = path := (Event.began.inj hbetween).1
      exact absurd hpath (by simp)
    · rcases List.mem_append.1 hbetween with hbetween | hbetween
      · obtain ⟨entered, hentered⟩ := hmembers.runsSteps hruns place between hbetween
        exact ⟨entered, List.mem_cons_of_mem _ (List.mem_append_left _ hentered)⟩
      · exact nomatch List.mem_singleton.1 hbetween

/-- A `validate` block collects everything in one pass. Let its members be plain steps, any number
    of them and with any names, whose handlers leave the call alone and end with a verdict, with an
    outcome or with a fault that is no authoring error; let the call be unfinished when the block is
    entered, whether or not its outcome is a failure; and let the instrumentation skip no step. Then
    no error is raised, and all handlers are entered once, in order. The errors and exceptions are
    those that gathering what the handlers found, from the first to the last, makes of the ones
    before. The output record of a step is the output of the last handler under its name that
    passed, or if there is none the one before, and nothing else in the context changes. The
    information, the output and the arguments are those before, the call is unfinished, and the
    trace has one plain entry more for each step if steps are traced. -/
theorem validateBlock_gathers (setting : Setting ω) (steps : List (String × Handler ω))
    (hvalidates : ∀ step ∈ steps, step.2.Validates) (path : Path) (inherited : Kind) (call : Call)
    (hrunning : call.finished = false) (world : ω)
    (hruns : Event.RunsSteps (setting.follow (.block .validate (plainSteps steps)) path inherited
      ⟨call, ⟨world, []⟩⟩).2.world.log path) :
    let ran := setting.follow (.block .validate (plainSteps steps)) path inherited
      ⟨call, ⟨world, []⟩⟩
    let events := ran.2.world.log
    let after := ran.2.call
    let found := (steps.map Prod.fst).zip ((Event.returns events).map Prod.snd)
    let gathered := found.foldl (Outcome.gather setting.name) call.outcome
    ran.1 = .ok ()
      ∧ Event.enteredPaths events = (List.range steps.length).map (fun index => path ++ [index])
      ∧ (Event.returns events).map Prod.fst = Event.enteredPaths events
      ∧ after.outcome.errors = gathered.errors ∧ after.outcome.exceptions = gathered.exceptions
      ∧ (∀ step, after.context.outputOf step
        = (Context.lastRecord step found).or (call.context.outputOf step))
      ∧ (∀ key, (∀ step, key ≠ Context.outputKey step) →
        after.context.get? key = call.context.get? key)
      ∧ after.outcome.information = call.outcome.information
      ∧ after.outcome.output = call.outcome.output
      ∧ after.outcome.trace = call.outcome.trace
        ++ (if setting.config.tracesSteps then steps.map fun (name, _) => .step name else [])
      ∧ after.arguments = call.arguments ∧ after.finished = false := by
  intro ran events after found gathered
  obtain ⟨inner, hlog, hcourse⟩ := setting.takes_follow (.block .validate (plainSteps steps)) path
    inherited ⟨call, ⟨world, []⟩⟩
  obtain rfl : events = inner := hlog
  obtain ⟨hresult, hentered, hreturned, hgathered⟩ :=
    hcourse.gathers_block hvalidates hrunning hruns
  have hafter : after = setting.gatherAll found call := hgathered
  have hfailures : after.outcome.onlyFailures = gathered.onlyFailures := by
    rw [hafter, onlyFailures_gatherAll, Outcome.onlyFailures_foldl_gather]
  obtain ⟨herrors, hexceptions⟩ := Outcome.onlyFailures_eq_iff.1 hfailures
  have hcontext : after.context = found.foldl Context.recordFound call.context := by
    rw [hafter, context_gatherAll]
  have hnames : found.map Prod.fst = steps.map Prod.fst := by
    have hlength := congrArg List.length hreturned
    rw [List.length_map, Path.members, List.length_map, List.length_range'] at hlength
    refine List.map_fst_zip (Nat.le_of_eq ?_)
    rw [List.length_map, List.length_map, hlength]
  have hentries : (found.map fun found => TraceEntry.step found.1)
      = steps.map fun (name, _) => TraceEntry.step name := by
    have hmapped := congrArg (List.map TraceEntry.step) hnames
    rwa [List.map_map, List.map_map] at hmapped
  refine ⟨hresult, ?_, ?_, herrors, hexceptions, fun step => ?_, fun key hkey => ?_, ?_⟩
  · rw [hentered, Path.members, List.range_eq_range']
  · rw [hreturned, hentered]
  · rw [hcontext, Context.outputOf_foldl_recordFound]
  · rw [hcontext, Context.get?_foldl_recordFound _ _ hkey]
  · rw [hafter, trace_gatherAll, hentries]
    exact ⟨view_gatherAll (·.outcome.information) (fun _ _ _ _ _ => rfl) found call,
      view_gatherAll (·.outcome.output) (fun _ _ _ _ _ => rfl) found call, rfl,
      view_gatherAll (·.arguments) (fun _ _ _ _ _ => rfl) found call,
      (view_gatherAll (·.finished) (fun _ _ _ _ _ => rfl) found call).trans hrunning⟩

/-- A handler that leaves everything alone and ends in the given way. -/
def endingWith (ending : HandlerEnd) : Handler Unit := fun state => (ending, state)

/-- Validations of all sorts, with names that repeat: two that fail, one whose handler faults, and
    two that pass. -/
def mixedValidations : List (String × Handler Unit) :=
  [("age", endingWith (.answered (.verdict
      (Validation.built [] [.error "age" (.string "too young")]).verdict))),
    ("name", endingWith (.answered (.verdict
      (Validation.ofValues [("name", .string "Ann")]).verdict))),
    ("stock", endingWith (.faulted (Fault.ofText "no connection"))),
    ("name", endingWith (.answered (.outcome (.withOutput (.string "Bob"))))),
    ("age", endingWith (.answered (.outcome
      (Outcome.addError {} "age" (.array [.string "too young", .string "unknown"])))))]

/-- The call at its start, but for an error. -/
def failedCall : Call := (Call.start {}).mapOutcome (·.addError "base" (.string "closed"))

/-- All of them are run although the outcome is a failure from the start. Equal messages are kept
    once, and of the two outputs under one name the last one stays. -/
theorem gathers_mixed_validations :
    ∃ ran, ran = direct.follow (.block .validate (plainSteps mixedValidations)) [0] .step
        ⟨failedCall, ⟨(), []⟩⟩
      ∧ (∀ step ∈ mixedValidations, step.2.Validates) ∧ failedCall.finished = false
      ∧ Event.RunsSteps ran.2.world.log [0] ∧ failedCall.outcome.isFailure = true
      ∧ ran.1 = .ok ()
      ∧ Event.enteredPaths ran.2.world.log = [[0, 0], [0, 1], [0, 2], [0, 3], [0, 4]]
      ∧ (ran.2.call.outcome.errors.map fun (field, messages) => (field, messages.length))
        = [("base", 1), ("age", 2)]
      ∧ ran.2.call.outcome.exceptions = [("stock", ["no connection"])]
      ∧ (ran.2.call.context.outputOf "name").any (·.same (.string "Bob")) = true
      ∧ (ran.2.call.context.outputOf "age").isNone = true := by
  have hvalidates : ∀ step ∈ mixedValidations, step.2.Validates := by
    simp only [mixedValidations, List.forall_mem_cons]
    exact ⟨fun _ => ⟨rfl, trivial⟩, fun _ => ⟨rfl, trivial⟩, fun _ => ⟨rfl, rfl⟩,
      fun _ => ⟨rfl, trivial⟩, fun _ => ⟨rfl, trivial⟩, List.forall_mem_nil _⟩
  have hinstrumentation : direct.RunsInstrumented := fun _ hnone => nomatch hnone
  have htransaction : Kind.validate ≠ .transaction := nofun
  have hbenchmark : Kind.validate ≠ .benchmark := nofun
  have hruns := runsSteps_follow hinstrumentation htransaction hbenchmark mixedValidations [0] .step
    failedCall ()
  obtain ⟨hok, hpaths, -, herrors, hexceptions, hrecords, -⟩ :=
    validateBlock_gathers direct mixedValidations hvalidates [0] .step failedCall rfl () hruns
  refine ⟨_, rfl, hvalidates, rfl, hruns, rfl, hok, hpaths, ?_, ?_, ?_, ?_⟩
  · rw [herrors]
    decide +kernel
  · rw [hexceptions]
    decide +kernel
  · rw [hrecords "name"]
    decide +kernel
  · rw [hrecords "age"]
    decide +kernel

end Setting

end OperationPipeline

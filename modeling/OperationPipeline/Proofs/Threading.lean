import OperationPipeline.Proofs.Escape

set_option autoImplicit false

/-! # What runs through a course

Many laws relate the call before something is carried out, what happens, and the call after. Such a
relation holds of every course if it holds of nothing, of one thing after another, and of each
single thing that can happen (`Threads`). A step counts as one such thing, from its trace entry to
what becomes of its answer, since only the whole of it can be told from outside. -/

namespace OperationPipeline

variable {ω : Type}

/-! ## Handlers that leave something alone -/

/-- Whether a handler leaves alone what can be seen of its outcome in some view. -/
def Handler.Spares {α : Type} (handler : Handler ω) (view : Outcome → α) : Prop :=
  ∀ state, view (handler state).2.call.outcome = view state.call.outcome

theorem Handler.Spares.leads {α : Type} {handler : Handler ω} {view : Outcome → α}
    (h : handler.Spares view) {before after : Call} {ending : HandlerEnd}
    (hleads : handler.Leads before ending after) : view after.outcome = view before.outcome := by
  obtain ⟨world, world', hrun⟩ := hleads
  have hview := h ⟨before, world⟩
  rw [hrun] at hview
  exact hview

/-- No handler of a step in the tree changes what the handlers of its leaves leave alone. -/
theorem Instruction.view_of_leads {α : Type} {view : Outcome → α}
    {root : Instruction (Handler ω)} (h : ∀ leaf ∈ root.leaves, leaf.2.2.Spares view)
    {path : Path} {kind : Kind} {step : String} {handler : Handler ω}
    (hat : root.at? path = some (.leaf kind step handler)) {before after : Call}
    {ending : HandlerEnd} (hleads : handler.Leads before ending after) :
    view after.outcome = view before.outcome :=
  (h (kind, step, handler) (leaves_subset_of_at? hat List.mem_cons_self)).leads hleads

/-! ## Steps by position -/

section Positions

variable {η : Type}

/-- The kind that the step at the path is run as, and its name, if there is a step. -/
def Instruction.stepAt? (root : Instruction η) (path : Path) : Option (Kind × String) :=
  match root.at? path with
  | some (.leaf kind step _) => some (Scope.leafKind kind (root.inheritedAt .step path), step)
  | some (.block _ _) | none => none

theorem Instruction.stepAt?_of_at? {root : Instruction η} {path : Path} {kind : Kind}
    {step : String} {handler : η} (hat : root.at? path = some (.leaf kind step handler)) :
    root.stepAt? path = some (Scope.leafKind kind (root.inheritedAt .step path), step) := by
  rw [stepAt?, hat]

end Positions

/-! ## Relations that run through -/

/-- Whether an event is neither about a handler nor about a fault. -/
def Event.IsPassing : Event → Prop
  | .entered _ _ | .returned _ _ _ | .recorded _ => False
  | .began _ _ | .ended _ _ _ | .transactionOpened _ _ | .blockAnswered _ | .traceOpened _ _ _
  | .traceRan => True

theorem Event.IsTrace.isPassing {event : Event} (h : event.IsTrace) : event.IsPassing := by
  cases event with
  | traceOpened _ _ _ => trivial
  | traceRan => trivial
  | _ => exact h.elim

/-- Whether a relation between the call before, what happens and the call after holds of each thing
    that can happen while the tree `root` is carried out, and of one after another. -/
structure Threads (setting : Setting ω) (root : Instruction (Handler ω))
    (relation : Call → List Event → Call → Prop) : Prop where
  nil (call : Call) : relation call [] call
  append {before mid after : Call} {events later : List Event} (h : relation before events mid)
    (hlater : relation mid later after) : relation before (events ++ later) after
  passing (event : Event) (h : event.IsPassing) (call : Call) : relation call [event] call
  timed (call : Call) (label : String) (timing : Timing) :
    relation call [] (call.mapOutcome (·.addInformation [(label, timing.toJson)]))
  settled {step : String} {fault : Fault} {before after : Call} {events : List Event}
    {result : Except EngineError Unit}
    (h : Settled setting step fault before events result after) : relation before events after
  /-- A handler answers, and its answer is taken. -/
  answered {path : Path} {kind : Kind} {step : String} {handler : Handler ω}
    {before mid after : Call} {ending : HandlerEnd} {answer : Answer}
    {result : Except EngineError Unit} (hat : root.at? path = some (.leaf kind step handler))
    (hhandler : handler.Leads (setting.tracedCall step before) ending mid)
    (hanswer : ending.result = .ok answer)
    (haccepts : setting.Accepts step mid (Scope.leafKind kind (root.inheritedAt .step path)) answer
      result after) :
    relation before [.entered path (setting.tracedCall step before), .returned path ending mid]
      after
  /-- A handler faults; the fault is yet to be settled. -/
  faulted {path : Path} {kind : Kind} {step : String} {handler : Handler ω} {before mid : Call}
    {ending : HandlerEnd} {fault : Fault} (hat : root.at? path = some (.leaf kind step handler))
    (hhandler : handler.Leads (setting.tracedCall step before) ending mid)
    (hfault : ending.result = .error fault) :
    relation before [.entered path (setting.tracedCall step before), .returned path ending mid] mid

variable {setting : Setting ω} {root : Instruction (Handler ω)}
  {relation : Call → List Event → Call → Prop}

namespace Threads

theorem passingAll (h : Threads setting root relation) {events : List Event}
    (hevents : ∀ event ∈ events, event.IsPassing) (call : Call) : relation call events call := by
  induction events with
  | nil => exact h.nil call
  | cons event rest ih =>
    obtain ⟨hevent, hrest⟩ := List.forall_mem_cons.1 hevents
    exact h.append (h.passing event hevent call) (ih hrest)

theorem traces (h : Threads setting root relation) {events : List Event}
    (hevents : ∀ event ∈ events, event.IsTrace) (call : Call) : relation call events call :=
  h.passingAll (fun event hevent => (hevents event hevent).isPassing) call

theorem stepped (h : Threads setting root relation) {path : Path} {kind inherited : Kind}
    {step : String} {handler : Handler ω} {before after : Call} {events : List Event}
    {result : Except EngineError Unit}
    (hstepped : Stepped setting path (Scope.leafKind kind inherited) step handler before events
      result after)
    (hplaced : (Task.inner path (.leaf kind step handler) inherited).Placed root) :
    relation before events after := by
  obtain ⟨hat, rfl⟩ := hplaced
  cases hstepped with
  | skipped hbackend hmeets hevents => exact h.traces hevents before
  | answered hopening hclosing hhandler hanswer haccepts =>
    have hstep := h.answered hat hhandler hanswer haccepts
    exact h.append (h.traces hopening before) (h.append hstep (h.traces hclosing after))
  | @faulted mid _ _ _ _ _ _ _ hopening hclosing hhandler hfault hsettled =>
    have hstep := h.faulted hat hhandler hfault
    have hend := h.append (h.traces hclosing mid) (h.settled hsettled)
    exact h.append (h.traces hopening before) (h.append hstep hend)

theorem closed (h : Threads setting root relation) {last : Except Abort Unit}
    {before after : Call} {events : List Event} {result : Except EngineError Unit}
    (hclosed : Closed setting before last events result after) : relation before events after := by
  cases hclosed with
  | committed => exact h.nil before
  | rolledBack hsignal => exact h.nil before
  | faulted hsignal hsettled => exact h.settled hsettled

end Threads

/-- What runs through all single things runs through every course. -/
theorem Course.threads (hthreads : Threads setting root relation) {task : Task (Handler ω)}
    {before after : Call} {events : List Event} {result : Except EngineError Unit}
    (h : Course setting task before events result after) (hplaced : task.Placed root) :
    relation before events after := by
  induction h with
  | @node path _ _ before after events result h ih =>
    have hbegan := hthreads.passing (.began path before) trivial before
    have hended := hthreads.passing (.ended path result after) trivial after
    exact hthreads.append hbegan (hthreads.append (ih hplaced) hended)
  | plain htransaction hbenchmark h ih => exact ih hplaced
  | untimed hkind h ih => exact ih hplaced
  | @timed _ instruction _ _ after events timing hkind h ih =>
    have htimed := hthreads.append (ih hplaced) (hthreads.timed after instruction.label timing)
    rwa [List.append_nil] at htimed
  | @unbacked _ _ _ call hkind hbackend => exact hthreads.nil call
  | @backed _ _ _ before _ _ _ _ _ _ _ _ hkind hbackend hmeets h hclosed ih =>
    have hopened := hthreads.passing (.transactionOpened setting.config.transactionMethod
      setting.config.transactionOptions) trivial before
    exact hthreads.append hopened (hthreads.append (ih hplaced) (hthreads.closed hclosed))
  | @noRound _ _ _ call => exact hthreads.nil call
  | @round _ _ _ _ mid _ _ _ result _ h hlater ih ihlater =>
    have hanswered := hthreads.passing (.blockAnswered
      (Setting.blockAnswer result mid.outcome)) trivial mid
    exact hthreads.append (ih hplaced) (hthreads.append hanswered (ihlater hplaced))
  | leaf h => exact hthreads.stepped h hplaced
  | block h ih => exact ih hplaced.body
  | @nil _ _ _ call => exact hthreads.nil call
  | raised h ih => exact ih hplaced.head
  | stopped h hstops ih => exact ih hplaced.head
  | next h hstops hlater ih ihlater =>
    exact hthreads.append (ih hplaced.head) (ihlater hplaced.tail)

/-- What runs through every course relates the calls before and after the walk of an instruction. -/
theorem Threads.of_walk (hthreads : Threads setting root relation) {path : Path}
    {instruction : Instruction (Handler ω)} (hat : root.at? path = some instruction)
    (state : State ω) :
    ∃ events, relation state.call events
      (setting.walk instruction (root.inheritedAt .step path) state).2.call := by
  obtain ⟨events, -, hcourse⟩ := setting.takes_follow instruction path
    (root.inheritedAt .step path) ⟨state.call, ⟨state.world, []⟩⟩
  have hwalk := setting.plain_follow instruction path (root.inheritedAt .step path)
    ⟨state.call, ⟨state.world, []⟩⟩
  refine ⟨events, ?_⟩
  have hstate : State.plain ⟨state.call, ⟨state.world, []⟩⟩ = state := rfl
  rw [← hstate, ← hwalk]
  exact hcourse.threads hthreads ⟨hat, rfl⟩

theorem CallCourse.threads {instructions : List (Instruction (Handler ω))}
    (hthreads : Threads setting (.whole instructions) relation) {start after : Call}
    {events : List Event} {result : Option (Except EngineError Unit)}
    (h : CallCourse setting instructions start events result after) :
    relation start events after := by
  cases h with
  | skipped hbackend hmeets hevents => exact hthreads.traces hevents start
  | walked hopening hclosing h =>
    have hwalked := h.threads hthreads (Task.placed_whole instructions)
    exact hthreads.append (hthreads.append (hthreads.traces hopening start) hwalked)
      (hthreads.traces hclosing after)

end OperationPipeline

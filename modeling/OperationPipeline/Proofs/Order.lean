import OperationPipeline.Proofs.CourseLaws

set_option autoImplicit false

/-! # The order of steps

Handlers are entered in the order in which their steps are declared, and none is entered twice
(`Course.sublist_enteredPaths`). A success that was not cut short is complete: no handler is left
out (`Course.enteredPaths_eq`), provided that the backends do run what they are given. -/

namespace OperationPipeline

variable {ω : Type} {setting : Setting ω}

/-! ## Entries of handlers -/

/-- The path of the handler that is entered, if the event is such an entry. -/
def Event.enteredPath? : Event → Option Path
  | .entered path _ => some path
  | .began _ _ | .ended _ _ _ | .returned _ _ _ | .transactionOpened _ _ | .blockAnswered _
  | .traceOpened _ _ _ | .traceRan | .recorded _ => none

/-- The paths of the handlers that are entered, in turn. -/
def Event.enteredPaths (events : List Event) : List Path :=
  events.filterMap enteredPath?

theorem Event.enteredPaths_append (first second : List Event) :
    enteredPaths (first ++ second) = enteredPaths first ++ enteredPaths second :=
  List.filterMap_append

theorem Event.enteredPaths_cons_of_none {event : Event} (h : event.enteredPath? = none)
    (events : List Event) : enteredPaths (event :: events) = enteredPaths events :=
  List.filterMap_cons_none h

theorem Event.enteredPaths_cons_entered (path : Path) (call : Call) (events : List Event) :
    enteredPaths (.entered path call :: events) = path :: enteredPaths events := rfl

theorem Event.enteredPaths_of_trace {events : List Event} (h : ∀ event ∈ events, event.IsTrace) :
    enteredPaths events = [] := by
  refine List.filterMap_eq_nil_iff.2 fun event hevent => ?_
  have htrace := h event hevent
  cases event with
  | entered _ _ => exact htrace.elim
  | _ => rfl

theorem Settled.enteredPaths {step : String} {fault : Fault} {before after : Call}
    {events : List Event} {result : Except EngineError Unit}
    (h : Settled setting step fault before events result after) :
    Event.enteredPaths events = [] := by
  cases h <;> rfl

theorem Closed.enteredPaths {before after : Call} {last : Except Abort Unit} {events : List Event}
    {result : Except EngineError Unit} (h : Closed setting before last events result after) :
    Event.enteredPaths events = [] := by
  cases h with
  | committed => rfl
  | rolledBack hsignal => rfl
  | faulted hsignal hsettled => exact hsettled.enteredPaths

/-- The handler of a step is entered once, unless the instrumentation does not run its block. -/
theorem Stepped.enteredPaths {path : Path} {kind : Kind} {step : String} {handler : Handler ω}
    {before after : Call} {events : List Event} {result : Except EngineError Unit}
    (h : Stepped setting path kind step handler before events result after) :
    Event.enteredPaths events = [path]
      ∨ Event.enteredPaths events = [] ∧ ∃ backend, setting.backendAt .step = some backend
        ∧ ∀ contract, backend.Meets contract → contract [] () := by
  cases h with
  | skipped hbackend hmeets hevents =>
    exact Or.inr ⟨Event.enteredPaths_of_trace hevents, _, hbackend, hmeets⟩
  | answered hopening hclosing hhandler hanswer haccepts =>
    refine Or.inl ?_
    rw [Event.enteredPaths_append, Event.enteredPaths_of_trace hopening, List.nil_append,
      Event.enteredPaths_cons_entered, Event.enteredPaths_cons_of_none rfl,
      Event.enteredPaths_of_trace hclosing]
  | faulted hopening hclosing hhandler hfault hsettled =>
    refine Or.inl ?_
    rw [Event.enteredPaths_append, Event.enteredPaths_of_trace hopening, List.nil_append,
      Event.enteredPaths_cons_entered, Event.enteredPaths_cons_of_none rfl,
      Event.enteredPaths_append, Event.enteredPaths_of_trace hclosing, hsettled.enteredPaths,
      List.append_nil]

/-- The paths to the steps that can be run for a task. -/
def Task.leafPaths {η : Type} : Task η → List Path
  | .node path instruction _ | .wrapped path instruction _ | .inner path instruction _
  | .rounds path instruction _ _ => instruction.leafPaths path
  | .members path index body _ => Instruction.leafPathsAll body path index

/-! ## Nothing twice -/

/-- Handlers are entered in the order of their steps. -/
theorem Course.sublist_enteredPaths {task : Task (Handler ω)} {before after : Call}
    {events : List Event} {result : Except EngineError Unit}
    (h : Course setting task before events result after) (hbackend : setting.Transacts .atMostOnce)
    (hsingle : task.Single) : (Event.enteredPaths events).Sublist task.leafPaths := by
  induction h with
  | node h ih =>
    rw [Event.enteredPaths_cons_of_none rfl, Event.enteredPaths_append]
    exact (List.append_nil _).symm ▸ ih trivial
  | plain htransaction hbenchmark h ih => exact ih trivial
  | untimed hkind h ih => exact ih trivial
  | timed hkind h ih => exact ih trivial
  | unbacked hkind hnone => exact List.nil_sublist _
  | backed hkind hsome hmeets h hclosed ih =>
    rw [Event.enteredPaths_cons_of_none rfl, Event.enteredPaths_append, hclosed.enteredPaths,
      List.append_nil]
    exact ih (hmeets _ (hbackend _ hsome))
  | noRound => exact List.nil_sublist _
  | round h hlater ih ihlater =>
    obtain rfl := hsingle.eq_nil
    obtain ⟨rfl, -⟩ := hlater.of_no_round
    rw [Event.enteredPaths_append, Event.enteredPaths_cons_of_none rfl]
    exact (List.append_nil _).symm ▸ ih trivial
  | leaf h =>
    rcases h.enteredPaths with hentered | ⟨hentered, -⟩
    · rw [hentered]
      exact List.Sublist.refl _
    · rw [hentered]
      exact List.nil_sublist _
  | block h ih => exact ih trivial
  | nil => exact List.nil_sublist _
  | raised h ih => exact (ih trivial).trans (List.sublist_append_left _ _)
  | stopped h hstops ih => exact (ih trivial).trans (List.sublist_append_left _ _)
  | next h hstops hlater ih ihlater =>
    rw [Event.enteredPaths_append]
    exact (ih trivial).append (ihlater trivial)

/-! ## Nothing left out -/

/-- Whether the instrumentation backend, if there is one, always runs its block. -/
def Setting.RunsInstrumented (setting : Setting ω) : Prop :=
  ∀ backend, setting.config.instrumentationBackend = some backend → backend.Runs

theorem Setting.RunsInstrumented.not_skipped (h : setting.RunsInstrumented) {level : TraceLevel}
    {backend : Instrumentation ω} (hbackend : setting.backendAt level = some backend)
    (hmeets : ∀ contract, backend.Meets contract → contract [] ()) : False :=
  hmeets _ (h backend (instrumentationBackend_of_backendAt hbackend)) rfl

/-- A transaction that ends without a failure leaves the call as it was after its block. -/
theorem Closed.of_success {before after : Call} {last : Except Abort Unit} {events : List Event}
    (h : Closed setting before last events (.ok ()) after)
    (hsuccess : after.outcome.isFailure = false) :
    after = before ∧ ∀ raised, last = .error raised → raised.fault? = none := by
  cases h with
  | committed => exact ⟨rfl, nofun⟩
  | rolledBack hsignal =>
    refine ⟨rfl, fun raised hraised => ?_⟩
    obtain rfl := Except.error.inj hraised
    exact hsignal
  | faulted hsignal hsettled =>
    cases hsettled with
    | recorded hauthoring =>
      exact nomatch (Outcome.isFailure_addException _ _ _ _).symm.trans hsuccess

/-- Whether the end of a task shows that all its steps were run, each once: it does if nothing was
    raised and the call is neither finished nor failed. The answers of a transaction's block stand
    for what was raised inside. -/
def Task.Complete {η : Type} (task : Task η) (events : List Event)
    (result : Except EngineError Unit) (after : Call) : Prop :=
  match task with
  | .rounds _ _ _ answers =>
    ∀ answer, answers = [answer] → ∃ walked, answer = Setting.blockAnswer walked after.outcome
      ∧ (walked = .ok () → after.finished = false → after.outcome.isFailure = false →
        Event.enteredPaths events = task.leafPaths)
  | .node _ _ _ | .wrapped _ _ _ | .inner _ _ _ | .members _ _ _ _ =>
    result = .ok () → after.finished = false → after.outcome.isFailure = false →
      Event.enteredPaths events = task.leafPaths

/-- A transaction that ends well has let its block go through. -/
theorem Course.complete_backed {path : Path} {instruction : Instruction (Handler ω)}
    {inherited : Kind} {mid after : Call} {events later : List Event}
    {answers : List (Except Abort Unit)} {last : Except Abort Unit}
    {result : Except EngineError Unit} (hkeeps : TransactionContract.keepsErrors answers last)
    (hreplays : TransactionContract.replaysNoSignal answers last)
    (hrounds : (Task.rounds path instruction inherited answers).Complete events (.ok ()) mid)
    (hclosed : Closed setting mid last later result after) (hok : result = .ok ())
    (hrunning : after.finished = false) (hsuccess : after.outcome.isFailure = false) :
    Event.enteredPaths events = instruction.leafPaths path := by
  subst hok
  obtain ⟨rfl, hsignal⟩ := hclosed.of_success hsuccess
  obtain ⟨answer, hanswers, herrors⟩ := hkeeps
  obtain ⟨walked, hanswer, hentered⟩ := hrounds answer hanswers
  cases answer with
  | ok u =>
    obtain ⟨hwalked, -⟩ := (Setting.blockAnswer_eq_ok_iff _ _).1 hanswer.symm
    exact hentered hwalked hrunning hsuccess
  | error abort =>
    -- the backend ends with the signal to roll back, so that is what its block gave it
    obtain ⟨raised, hlast⟩ := herrors abort rfl
    have hgiven : .error abort ∈ answers := hanswers ▸ List.mem_singleton_self _
    have hsignal' := hreplays raised hlast (hsignal raised hlast) abort hgiven
    have hfailed := Setting.isFailure_of_blockAnswer hanswer.symm hsignal'
    exact nomatch hfailed.symm.trans hsuccess

/-- If nothing was raised and the call is neither finished nor failed, all handlers were entered. -/
theorem Course.enteredPaths_eq {task : Task (Handler ω)} {before after : Call}
    {events : List Event} {result : Except EngineError Unit}
    (h : Course setting task before events result after) (hruns : setting.RunsInstrumented)
    (hbackend : setting.Transacts .keepsErrors) (hreplays : setting.Transacts .replaysNoSignal)
    (hedits : task.Edits) (hfilled : before.outcome.Filled) :
    task.Complete events result after := by
  induction h with
  | node h ih =>
    intro hok hrunning hsuccess
    rw [Event.enteredPaths_cons_of_none rfl, Event.enteredPaths_append,
      ih hedits hfilled hok hrunning hsuccess]
    exact List.append_nil _
  | plain htransaction hbenchmark h ih => exact ih hedits hfilled
  | untimed hkind h ih => exact ih hedits hfilled
  | timed hkind h ih => exact ih hedits hfilled
  | unbacked hkind hnone => exact nofun
  | backed hkind hsome hmeets h hclosed ih =>
    intro hok hrunning hsuccess
    rw [Event.enteredPaths_cons_of_none rfl, Event.enteredPaths_append, hclosed.enteredPaths,
      List.append_nil]
    exact complete_backed (hmeets _ (hbackend _ hsome)) (hmeets _ (hreplays _ hsome))
      (ih hedits hfilled) hclosed hok hrunning hsuccess
  | noRound => exact nofun
  | @round _ _ _ _ _ _ _ _ result _ h hlater ih ihlater =>
    intro answer hanswers
    obtain ⟨rfl, rfl⟩ := List.cons.inj hanswers
    obtain ⟨rfl, rfl⟩ := hlater.of_no_round
    refine ⟨result, rfl, fun hwalked hrunning hsuccess => ?_⟩
    rw [Event.enteredPaths_append, Event.enteredPaths_cons_of_none rfl]
    exact (List.append_nil _).trans (ih hedits hfilled hwalked hrunning hsuccess)
  | leaf h =>
    intro _ _ _
    rcases h.enteredPaths with hentered | ⟨-, backend, hskips, hmeets⟩
    · exact hentered
    · exact (hruns.not_skipped hskips hmeets).elim
  | block h ih => exact ih hedits hfilled
  | nil => exact fun _ _ _ => rfl
  | raised h ih => exact nofun
  | stopped h hstops ih =>
    intro _ hrunning hsuccess
    rw [hrunning, hsuccess, StopRule.stops_running] at hstops
    exact nomatch hstops
  | next h hstops hlater ih ihlater =>
    intro hok hrunning hsuccess
    obtain ⟨hfilled', -⟩ := h.grows hedits.head hfilled
    have hlast := ihlater hedits.tail hfilled' hok hrunning hsuccess
    have hrunning' := StopRule.finished_of_not_stops hstops
    have hsuccess' : _ = false := Bool.eq_false_iff.2 fun hfailed =>
      nomatch ((hlater.grows hedits.tail hfilled').2 hfailed).symm.trans hsuccess
    rw [Event.enteredPaths_append, ih hedits.head hfilled rfl hrunning' hsuccess', hlast]
    rfl

/-! ## Whole calls -/

theorem CallCourse.sublist_enteredPaths {instructions : List (Instruction (Handler ω))}
    {start after : Call} {events : List Event} {result : Option (Except EngineError Unit)}
    (h : CallCourse setting instructions start events result after)
    (hbackend : setting.Transacts .atMostOnce) :
    (Event.enteredPaths events).Sublist (Instruction.leafPathsAll instructions [] 0) := by
  cases h with
  | skipped hskips hmeets hevents =>
    rw [Event.enteredPaths_of_trace hevents]
    exact List.nil_sublist _
  | walked hopening hclosing h =>
    rw [Event.enteredPaths_append, Event.enteredPaths_append,
      Event.enteredPaths_of_trace hopening, Event.enteredPaths_of_trace hclosing,
      List.nil_append, List.append_nil]
    exact h.sublist_enteredPaths hbackend trivial

theorem CallCourse.enteredPaths_eq {instructions : List (Instruction (Handler ω))}
    {start after : Call} {events : List Event} {result : Option (Except EngineError Unit)}
    (h : CallCourse setting instructions start events result after)
    (hedits : ∀ leaf ∈ Instruction.leavesAll instructions, leaf.2.2.Edits)
    (hruns : setting.RunsInstrumented) (hbackend : setting.Transacts .keepsErrors)
    (hreplays : setting.Transacts .replaysNoSignal) (hfilled : start.outcome.Filled)
    (hok : ∀ error, result ≠ some (.error error))
    (hrunning : after.finished = false) (hsuccess : after.outcome.isFailure = false) :
    Event.enteredPaths events = Instruction.leafPathsAll instructions [] 0 := by
  cases h with
  | skipped hskips hmeets hevents =>
    have hskips' : setting.backendAt .operation = some _ := hskips
    exact (hruns.not_skipped hskips' hmeets).elim
  | @walked _ _ _ result _ hopening hclosing h =>
    rw [Event.enteredPaths_append, Event.enteredPaths_append,
      Event.enteredPaths_of_trace hopening, Event.enteredPaths_of_trace hclosing,
      List.nil_append, List.append_nil]
    cases result with
    | error error => exact absurd rfl (hok error)
    | ok u => exact h.enteredPaths_eq hruns hbackend hreplays hedits hfilled rfl hrunning hsuccess

namespace Setting

/-- Whatever the tree of instructions is, as long as no block of a transaction is run twice: the
    handlers that are entered during a call are those of some of its leaves, in the order of their
    declaration, and none is entered twice. They are all of them if the call returns a success and
    is not finished at its end, provided that handlers only edit the outcome, that instrumentations
    run their blocks, and that transactions run theirs once, keep their errors and answer none but
    the signal to roll back with a signal to roll back. (Handlers of calls that are made meanwhile,
    by the handlers of this one, are entered during those.) -/
theorem enters_steps_in_order (setting : Setting ω) (instructions : List (Instruction (Handler ω)))
    (arguments : Arguments) (world : ω) (hbackend : setting.Transacts .atMostOnce) :
    (Instruction.leafPathsAll instructions [] 0).map (Instruction.whole instructions).at?
        = (Instruction.leavesAll instructions).map (some ∘ Instruction.ofLeaf)
      ∧ (Event.enteredPaths (setting.transcript instructions arguments world)).Sublist
        (Instruction.leafPathsAll instructions [] 0)
      ∧ (Event.enteredPaths (setting.transcript instructions arguments world)).Nodup
      ∧ (∀ outcome, (∀ leaf ∈ Instruction.leavesAll instructions, leaf.2.2.Edits) →
        setting.RunsInstrumented → setting.Transacts .keepsErrors →
        setting.Transacts .replaysNoSignal →
        (setting.perform instructions arguments world).1 = .ok outcome →
        outcome.isSuccess = true →
        (setting.followCall instructions arguments world).2.call.finished = false →
        Event.enteredPaths (setting.transcript instructions arguments world)
          = Instruction.leafPathsAll instructions [] 0) := by
  have hsublist : (Event.enteredPaths (setting.transcript instructions arguments world)).Sublist
      (Instruction.leafPathsAll instructions [] 0) := by
    rcases setting.transcript_cases instructions arguments world with hnil | ⟨_, _, hcourse⟩
    · rw [hnil]
      exact List.nil_sublist _
    · exact hcourse.sublist_enteredPaths hbackend
  refine ⟨Instruction.at?_leafPathsAll instructions [] 0 rfl List.drop_zero, hsublist,
    (Instruction.nodup_leafPathsAll instructions [] 0).sublist hsublist, ?_⟩
  intro outcome hedits hruns hkeeps hreplays hperform hsuccess hrunning
  obtain ⟨htranscript, hok, rfl⟩ := of_perform_eq_ok hperform
  rw [htranscript]
  exact (setting.takes_followCall instructions arguments world).enteredPaths_eq hedits hruns hkeeps
    hreplays Outcome.filled_empty hok hrunning ((Outcome.isSuccess_eq_true_iff _).1 hsuccess)

/-- Steps under a transaction, a benchmark and a block. -/
def wrappedSteps : List (Instruction (Handler Unit)) :=
  [.leaf .transaction "first" fun state => (.answered .nothing, state),
    .block .benchmark
      [.leaf .step "second" fun state => (.answered .nothing, state),
        .block .step [.leaf .finishIf "third" fun state => (.answered (.flag false), state)]]]

/-- All steps are run, in order, when nothing fails. -/
theorem enters_wrapped_steps_in_order :
    direct.Transacts .atMostOnce
      ∧ Event.enteredPaths (direct.transcript wrappedSteps {} ()) = [[0], [1, 0], [1, 1, 0]] := by
  have hbackend : direct.Transacts .atMostOnce :=
    transacts_direct.imp fun _ _ h => h.keepsErrors.atMostOnce
  have hkeeps : direct.Transacts .keepsErrors := transacts_direct.imp fun _ _ h => h.keepsErrors
  have hreplays : direct.Transacts .replaysNoSignal :=
    transacts_direct.imp fun _ _ h => h.replaysNoSignal
  have hruns : direct.RunsInstrumented := fun _ hnone => nomatch hnone
  have hedits : ∀ leaf ∈ Instruction.leavesAll wrappedSteps, leaf.2.2.Edits := by
    intro leaf hleaf
    simp only [wrappedSteps, Instruction.leavesAll, Instruction.leaves, List.cons_append,
      List.nil_append, List.append_nil, List.mem_cons, List.not_mem_nil, or_false] at hleaf
    rcases hleaf with rfl | rfl | rfl <;> exact fun _ => ⟨[], rfl⟩
  refine ⟨hbackend, ?_⟩
  exact (enters_steps_in_order direct wrappedSteps {} () hbackend).2.2.2 _ hedits hruns hkeeps
    hreplays rfl rfl rfl

end Setting

/-! ## A signal that is kept -/

namespace Replay

/-- The steps that were entered, and the error of a block that was kept. -/
structure Desk where
  entered : List String
  kept : Option Abort

/-- A backend that keeps the first error of a block and raises one of its own in its place. The next
    error it answers with the one that it kept. -/
def replaying : TransactionBackend Desk := fun _ _ desk =>
  .once desk fun answer desk =>
    match answer, desk.kept with
    | .ok (), _ => (.ok (), desk)
    | .error abort, none =>
      (.error (Abort.ofFault (Fault.ofText "rollback failed")), { desk with kept := some abort })
    | .error _, some abort => (.error abort, { desk with kept := none })

theorem meets_replaying : replaying.Meets .keepsErrors := by
  intro method options desk answer desk'
  cases answer with
  | ok u => exact ⟨.ok u, rfl, nofun⟩
  | error abort =>
    obtain ⟨entered, kept⟩ := desk'
    cases kept with
    | none => exact ⟨.error abort, rfl, fun _ _ => ⟨_, rfl⟩⟩
    | some kept => exact ⟨.error abort, rfl, fun _ _ => ⟨kept, rfl⟩⟩

/-- A setting with this backend. -/
def office : Setting Desk where
  config := { transactionBackend := some replaying }
  name := some "Order"
  typeName := "Order"
  clock := fun _ _ => ⟨default, none⟩

/-- A handler that notes that its step was entered. -/
def entering (step : String) (work : Handler Desk) : Handler Desk := fun state =>
  work { state with world := { state.world with entered := state.world.entered ++ [step] } }

/-- A handler that does nothing. -/
def idle : Handler Desk := fun state => (.answered .nothing, state)

/-- An order is taken; then it is booked and paid, both or neither. -/
def order (take book : Handler Desk) : List (Instruction (Handler Desk)) :=
  [.leaf .step "take" (entering "take" take),
    .block .transaction
      [.leaf .step "book" (entering "book" book), .leaf .step "pay" (entering "pay" idle)]]

/-- An order that cannot be booked. -/
def failing : List (Instruction (Handler Desk)) := order idle Handler.complain

/-- An order that makes a failing one first, and then meets an error of the engine. -/
def raising : List (Instruction (Handler Desk)) :=
  order (fun state => (.answered .nothing, ⟨state.call, (office.perform failing {} state.world).2⟩))
    fun state => (.faulted (Fault.ofError (.definitionFrozen "Order")), state)

/-- A success is not complete if a transaction answers an error with a signal that another block
    gave it. The order inside is rolled back, and its signal is kept; the error of the order around
    it is answered with that signal, so the last step is left out and nobody is told. Besides, of
    the four steps that are entered in the meantime only two are steps of this call. -/
theorem replayed_signal_leaves_out_step :
    office.Transacts .keepsErrors ∧ office.RunsInstrumented
      ∧ (∀ leaf ∈ Instruction.leavesAll raising, leaf.2.2.Edits)
      ∧ ∃ outcome, (office.perform raising {} ⟨[], none⟩).1 = .ok outcome
        ∧ outcome.isSuccess = true
        ∧ (office.followCall raising {} ⟨[], none⟩).2.call.finished = false
        ∧ Event.enteredPaths (office.transcript raising {} ⟨[], none⟩) = [[0], [1, 0]]
        ∧ Instruction.leafPathsAll raising [] 0 = [[0], [1, 0], [1, 1]]
        ∧ (office.perform raising {} ⟨[], none⟩).2.entered = ["take", "take", "book", "book"] := by
  have hkeeps : office.Transacts .keepsErrors := by
    rintro backend ⟨⟩
    exact meets_replaying
  have hedits : ∀ leaf ∈ Instruction.leavesAll raising, leaf.2.2.Edits := by
    intro leaf hleaf
    simp only [raising, order, Instruction.leavesAll, Instruction.leaves, List.cons_append,
      List.nil_append, List.append_nil, List.mem_cons, List.not_mem_nil, or_false] at hleaf
    rcases hleaf with rfl | rfl | rfl <;> exact fun _ => ⟨[], rfl⟩
  exact ⟨hkeeps, nofun, hedits, _, rfl, rfl, rfl, rfl, rfl, rfl⟩

end Replay

end OperationPipeline

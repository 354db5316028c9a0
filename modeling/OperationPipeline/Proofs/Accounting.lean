import OperationPipeline.Proofs.Drift
import OperationPipeline.Proofs.Recording
import OperationPipeline.Proofs.Relaying

set_option autoImplicit false

/-! # The account of faults

Two things add to the exceptions of a call while it is carried out: a fault is recorded, or a step
takes over the exceptions of failed outcomes. `Accounted` lists both as postings, in the order in
which they happen, and says which event each of them belongs to: a fault to the handler that has
just returned or to the transaction that is about to end, so each of these accounts for one fault at
most. If handlers leave the exceptions of their own outcomes alone, the exceptions of a call are its
postings, one joined to the other (`CallCourse.balanced`). -/

namespace OperationPipeline

variable {ω : Type}

/-! ## Postings -/

/-- Something that adds to the exceptions of a call. -/
inductive Posting where
  /-- The handler of the step at the path has faulted. -/
  | handler (path : Path) (step : String) (fault : Fault)
  /-- The backend of the transaction at the path has faulted. -/
  | transaction (path : Path) (fault : Fault)
  /-- The step at the path has taken over failed outcomes. -/
  | merge (path : Path) (failed : List Outcome)

/-- What a fault can be put down to. -/
inductive Debtor where
  /-- The handler of the step at the path. -/
  | handler (path : Path)
  /-- The transaction at the path. -/
  | transaction (path : Path)

namespace Posting

/-- The fault that is posted. -/
def fault? : Posting → Option Fault
  | .handler _ _ fault | .transaction _ fault => some fault
  | .merge _ _ => none

/-- What the fault is put down to. -/
def debtor? : Posting → Option Debtor
  | .handler path _ _ => some (.handler path)
  | .transaction path _ => some (.transaction path)
  | .merge _ _ => none

/-- The key under which the fault is recorded, and its message. -/
def record? (operation : Option String) : Posting → Option (String × String)
  | .handler _ step fault => some (Outcome.qualified operation step, fault.message)
  | .transaction _ fault =>
    some (Outcome.qualified operation Setting.transactionStep, fault.message)
  | .merge _ _ => none

/-- The texts that are added, with their keys. -/
def texts (operation : Option String) : Posting → List (String × List String)
  | .handler _ step fault => [(Outcome.qualified operation step, [fault.message])]
  | .transaction _ fault =>
    [(Outcome.qualified operation Setting.transactionStep, [fault.message])]
  | .merge _ failed => failed.flatMap (·.exceptions)

/-- What is recorded are the messages of the faults that are posted. -/
theorem messages_record? (operation : Option String) (postings : List Posting) :
    (postings.filterMap (record? operation)).map (·.2)
      = (postings.filterMap fault?).map Fault.message := by
  rw [List.map_filterMap, List.map_filterMap]
  refine congrArg (postings.filterMap ·) (funext fun posting => ?_)
  cases posting <;> rfl

end Posting

namespace Event

/-- The fault that is recorded. -/
def fault? : Event → Option Fault
  | .recorded fault => some fault
  | _ => none

/-- The faults that are recorded, in turn. -/
def faults (events : List Event) : List Fault :=
  events.filterMap fault?

/-- What a fault can be put down to that is recorded at the event or next to it: the return of a
    handler, or the end of a transaction. -/
def debtor? : Event → Option Debtor
  | .returned path _ _ => some (.handler path)
  | .ended path _ _ => some (.transaction path)
  | _ => none

/-- Whether no exception comes from the event. -/
def IsQuiet {η : Type} (root : Instruction η) (event : Event) : Prop :=
  event.fault? = none ∧ event.failed root = []

theorem fault?_eq_none {event : Event} (h : ∀ fault, event ≠ .recorded fault) :
    event.fault? = none := by
  cases event with
  | recorded fault => exact absurd rfl (h fault)
  | _ => rfl

theorem faults_append (events later : List Event) :
    faults (events ++ later) = faults events ++ faults later :=
  List.filterMap_append

theorem IsPassing.isQuiet {η : Type} {event : Event} (h : event.IsPassing) (root : Instruction η) :
    event.IsQuiet root := by
  cases event with
  | entered _ _ => exact h.elim
  | returned _ _ _ => exact h.elim
  | recorded _ => exact h.elim
  | _ => exact ⟨rfl, rfl⟩

end Event

/-- Whether the postings account for what happens: each fault that is recorded is one that a handler
    has just raised or that ends a transaction, and the failed outcomes that are taken over are
    those that a handler has answered with. -/
inductive Accounted (root : Instruction (Handler ω)) : List Event → List Posting → Prop where
  | nil : Accounted root [] []
  | quiet {event : Event} {events : List Event} {postings : List Posting}
      (hquiet : event.IsQuiet root) (h : Accounted root events postings) :
    Accounted root (event :: events) postings
  /-- Between the return of a handler and the recording of its fault only the instrumentation comes
      to its end. -/
  | handler {path : Path} {kind : Kind} {step : String} {handler : Handler ω}
      {ending : HandlerEnd} {fault : Fault} {call : Call} {traces events : List Event}
      {postings : List Posting} (hat : root.at? path = some (.leaf kind step handler))
      (hfault : ending.result = .error fault) (hauthoring : fault.authoring? = none)
      (htraces : ∀ event ∈ traces, event.IsTrace) (h : Accounted root events postings) :
    Accounted root (.returned path ending call :: (traces ++ .recorded fault.recovered :: events))
      (.handler path step fault.recovered :: postings)
  /-- The fault of its backend is the last thing in a transaction, which goes through. -/
  | transaction {path : Path} {instruction : Instruction (Handler ω)} {fault : Fault} {call : Call}
      {events : List Event} {postings : List Posting}
      (hat : root.at? path = some instruction) (hkind : instruction.kind = .transaction)
      (h : Accounted root events postings) :
    Accounted root (.recorded fault :: .ended path (.ok ()) call :: events)
      (.transaction path fault :: postings)
  /-- Nothing is recorded when failed outcomes are taken over. -/
  | merge {path : Path} {ending : HandlerEnd} {call : Call} {events : List Event}
      {postings : List Posting} (hfailed : Event.failed root (.returned path ending call) ≠ [])
      (h : Accounted root events postings) :
    Accounted root (.returned path ending call :: events)
      (.merge path (Event.failed root (.returned path ending call)) :: postings)

namespace Accounted

variable {root : Instruction (Handler ω)} {events : List Event} {postings : List Posting}

theorem quietAll (hquiet : ∀ event ∈ events, event.IsQuiet root) : Accounted root events [] := by
  induction events with
  | nil => exact .nil
  | cons event rest ih =>
    obtain ⟨hevent, hrest⟩ := List.forall_mem_cons.1 hquiet
    exact .quiet hevent (ih hrest)

theorem append (h : Accounted root events postings) {later : List Event}
    {laterPostings : List Posting} (hlater : Accounted root later laterPostings) :
    Accounted root (events ++ later) (postings ++ laterPostings) := by
  induction h with
  | nil => exact hlater
  | quiet hquiet h ih => exact .quiet hquiet ih
  | handler hat hfault hauthoring htraces h ih =>
    rw [List.cons_append, List.append_assoc]
    exact .handler hat hfault hauthoring htraces ih
  | transaction hat hkind h ih => exact .transaction hat hkind ih
  | merge hfailed h ih => exact .merge hfailed ih

/-- What is posted as faults is what is recorded. -/
theorem faults_eq (h : Accounted root events postings) :
    postings.filterMap Posting.fault? = Event.faults events := by
  induction h with
  | nil => rfl
  | quiet hquiet h ih => exact ih.trans (List.filterMap_cons_none hquiet.1).symm
  | @handler _ _ _ _ _ fault _ traces events _ hat hfault hauthoring htraces h ih =>
    have hnone : Event.faults traces = [] := List.filterMap_eq_nil_iff.2 fun event hevent =>
      ((htraces event hevent).isPassing.isQuiet root).1
    have hevents : ∀ first : Event, first.fault? = none →
        Event.faults (first :: (traces ++ .recorded fault.recovered :: events))
          = fault.recovered :: Event.faults events := by
      intro first hfirst
      rw [Event.faults, List.filterMap_cons_none hfirst]
      refine (Event.faults_append traces _).trans ?_
      rw [hnone]
      rfl
    rw [hevents _ rfl, ← ih]
    rfl
  | transaction hat hkind h ih => exact congrArg (List.cons _) ih
  | merge hfailed h ih => exact ih

/-- Each return of a handler and each end of a transaction accounts for one fault at most. -/
theorem debtors_sublist (h : Accounted root events postings) :
    (postings.filterMap Posting.debtor?).Sublist (events.filterMap Event.debtor?) := by
  induction h with
  | nil => exact List.Sublist.refl _
  | @quiet event events postings hquiet h ih =>
    exact ih.trans ((List.sublist_cons_self event events).filterMap _)
  | @handler path _ _ _ _ fault _ traces events _ hat hfault hauthoring htraces h ih =>
    have hlater : events.Sublist (traces ++ .recorded fault.recovered :: events) :=
      (List.sublist_cons_self _ events).trans (List.sublist_append_right traces _)
    exact (ih.trans (hlater.filterMap _)).cons_cons (.handler path)
  | @transaction path _ _ _ _ _ hat hkind h ih => exact ih.cons_cons (.transaction path)
  | merge hfailed h ih => exact ih.cons _

/-- If no exception is taken over, the texts that are added are those that are recorded. -/
theorem texts_eq (h : Accounted root events postings)
    (hnone : ∀ event ∈ events, ∀ failed ∈ event.failed root, failed.exceptions = [])
    (operation : Option String) :
    postings.flatMap (Posting.texts operation)
      = (postings.filterMap (Posting.record? operation)).map fun record =>
        (record.1, [record.2]) := by
  induction h with
  | nil => rfl
  | quiet hquiet h ih => exact ih (List.forall_mem_cons.1 hnone).2
  | handler hat hfault hauthoring htraces h ih =>
    obtain ⟨-, hlater⟩ := List.forall_mem_cons.1 hnone
    obtain ⟨-, hlater⟩ := List.forall_mem_append.1 hlater
    exact congrArg (List.cons _) (ih (List.forall_mem_cons.1 hlater).2)
  | transaction hat hkind h ih =>
    obtain ⟨-, hlater⟩ := List.forall_mem_cons.1 hnone
    exact congrArg (List.cons _) (ih (List.forall_mem_cons.1 hlater).2)
  | @merge path ending call _ _ hfailed h ih =>
    obtain ⟨hmerged, hlater⟩ := List.forall_mem_cons.1 hnone
    have htexts : Posting.texts operation
        (.merge path (Event.failed root (.returned path ending call))) = [] :=
      List.flatMap_eq_nil_iff.2 hmerged
    rw [List.flatMap_cons, htexts]
    exact ih hlater

end Accounted

/-! ## What the postings add up to -/

theorem Entries.joinAll_append {α : Type} (join : List α → List α → List α)
    (entries added later : Entries (List α)) :
    entries.joinAll join (added ++ later) = (entries.joinAll join added).joinAll join later :=
  List.foldl_append

theorem Outcome.exceptions_mergeFailures (outcome other : Outcome) :
    (outcome.mergeFailures other).exceptions
      = outcome.exceptions.joinAll (· ++ ·) other.exceptions := by
  rw [mergeFailures, addExceptions_eq, addErrorLists, exceptions_addErrors]

theorem Outcome.exceptions_foldl_mergeFailures (outcome : Outcome) (others : List Outcome) :
    (others.foldl mergeFailures outcome).exceptions
      = outcome.exceptions.joinAll (· ++ ·) (others.flatMap (·.exceptions)) := by
  induction others generalizing outcome with
  | nil => rfl
  | cons other rest ih =>
    refine (ih (outcome.mergeFailures other)).trans ?_
    rw [exceptions_mergeFailures, ← Entries.joinAll_append, List.flatMap_cons]

/-- Taking an answer adds the exceptions of the failed outcomes in it. -/
theorem Setting.Accepts.exceptions_eq {setting : Setting ω} {step : String} {before after : Call}
    {kind : Kind} {answer : Answer} {result : Except EngineError Unit}
    (h : setting.Accepts step before kind answer result after) :
    after.outcome.exceptions = before.outcome.exceptions.joinAll (· ++ ·)
      ((answer.failed kind).flatMap (·.exceptions)) :=
  (congrArg Outcome.exceptions h.collects).trans
    (Outcome.exceptions_foldl_mergeFailures before.outcome.onlyFailures _)

variable {setting : Setting ω} {root : Instruction (Handler ω)}

/-- Whether what happens can be accounted for, and the exceptions afterwards are those before with
    what is posted. -/
def Balanced (setting : Setting ω) (root : Instruction (Handler ω)) (before : Call)
    (events : List Event) (after : Call) : Prop :=
  ∃ postings, Accounted root events postings
    ∧ after.outcome.exceptions = before.outcome.exceptions.joinAll (· ++ ·)
      (postings.flatMap (Posting.texts setting.name))

namespace Balanced

theorem of_quiet {before after : Call} {events : List Event}
    (hquiet : ∀ event ∈ events, event.IsQuiet root)
    (hsame : after.outcome.exceptions = before.outcome.exceptions) :
    Balanced setting root before events after :=
  ⟨[], .quietAll hquiet, hsame⟩

theorem append {before mid after : Call} {events later : List Event}
    (h : Balanced setting root before events mid) (hlater : Balanced setting root mid later after) :
    Balanced setting root before (events ++ later) after := by
  obtain ⟨postings, haccounted, hexceptions⟩ := h
  obtain ⟨postings', haccounted', hexceptions'⟩ := hlater
  refine ⟨postings ++ postings', haccounted.append haccounted', ?_⟩
  rw [hexceptions', hexceptions, List.flatMap_append, Entries.joinAll_append]

theorem passing (event : Event) (hevent : event.IsPassing) (call : Call) :
    Balanced setting root call [event] call :=
  .of_quiet (List.forall_mem_singleton.2 (hevent.isQuiet root)) rfl

theorem traces {events : List Event} (hevents : ∀ event ∈ events, event.IsTrace) (call : Call) :
    Balanced setting root call events call :=
  .of_quiet (fun event hevent => (hevents event hevent).isPassing.isQuiet root) rfl

/-! ### Steps -/

variable {path : Path} {kind : Kind} {step : String} {handler : Handler ω}

/-- The entry of a handler adds no exception, and neither does the handler. -/
theorem entered (hspares : ∀ leaf ∈ root.leaves, leaf.2.2.Spares Outcome.exceptions)
    (hat : root.at? path = some (.leaf kind step handler)) {before mid : Call}
    {ending : HandlerEnd} (hhandler : handler.Leads (setting.tracedCall step before) ending mid) :
    Balanced setting root before [.entered path (setting.tracedCall step before)] mid := by
  refine .of_quiet (List.forall_mem_singleton.2 ⟨rfl, rfl⟩) ?_
  have hspared := Instruction.view_of_leads hspares hat hhandler
  have htraced : (setting.tracedCall step before).outcome.exceptions
      = before.outcome.exceptions := by
    rw [Setting.tracedCall]
    split <;> rfl
  exact hspared.trans htraced

/-- The return of a handler that answers adds the exceptions that its step takes over. -/
theorem answered (hat : root.at? path = some (.leaf kind step handler)) {mid after : Call}
    {answer : Answer} {result : Except EngineError Unit}
    (haccepts : setting.Accepts step mid (Scope.leafKind kind (root.inheritedAt .step path)) answer
      result after) :
    Balanced setting root mid [.returned path (.answered answer) mid] after := by
  have hfailed := Event.failed_answered (Instruction.stepAt?_of_at? hat) answer mid
  have hexceptions := haccepts.exceptions_eq
  rw [← hfailed] at hexceptions
  by_cases hnone : Event.failed root (.returned path (.answered answer) mid) = []
  · rw [hnone] at hexceptions
    exact .of_quiet (List.forall_mem_singleton.2 ⟨rfl, hnone⟩) hexceptions
  · refine ⟨_, .merge hnone .nil, ?_⟩
    rw [List.flatMap_singleton]
    exact hexceptions

/-- The return of a handler that faults adds the message of its fault, if it is recorded. -/
theorem faulted (hat : root.at? path = some (.leaf kind step handler)) {mid after : Call}
    {ending : HandlerEnd} {fault : Fault} {traces events : List Event}
    {result : Except EngineError Unit} (hfault : ending.result = .error fault)
    (htraces : ∀ event ∈ traces, event.IsTrace)
    (hsettled : Settled setting step fault mid events result after) :
    Balanced setting root mid (.returned path ending mid :: (traces ++ events)) after := by
  cases hsettled with
  | raised hauthoring =>
    have hfailed : Event.failed root (.returned path ending mid) = [] := by
      cases ending with
      | answered answer => exact nomatch hfault
      | faulted fault => rfl
      | panicked panic => rfl
    have hreturned : Balanced setting root mid [.returned path ending mid] mid :=
      .of_quiet (List.forall_mem_singleton.2 ⟨rfl, hfailed⟩) rfl
    rw [List.append_nil]
    exact hreturned.append (.traces htraces mid)
  | recorded hauthoring => exact ⟨_, .handler hat hfault hauthoring htraces .nil, rfl⟩

theorem stepped (hspares : ∀ leaf ∈ root.leaves, leaf.2.2.Spares Outcome.exceptions)
    {inherited : Kind} {before after : Call} {events : List Event}
    {result : Except EngineError Unit}
    (h : Stepped setting path (Scope.leafKind kind inherited) step handler before events result
      after) (hplaced : (Task.inner path (.leaf kind step handler) inherited).Placed root) :
    Balanced setting root before events after := by
  obtain ⟨hat, rfl⟩ := hplaced
  cases h with
  | skipped hbackend hmeets hevents => exact .traces hevents before
  | answered hopening hclosing hhandler hanswer haccepts =>
    obtain rfl := HandlerEnd.eq_answered hanswer
    have hentered := Balanced.entered hspares hat hhandler
    have hreturned := (Balanced.answered hat haccepts).append (.traces hclosing after)
    exact (Balanced.traces hopening before).append (hentered.append hreturned)
  | faulted hopening hclosing hhandler hfault hsettled =>
    have hentered := Balanced.entered hspares hat hhandler
    have hreturned := Balanced.faulted hat hfault hclosing hsettled
    exact (Balanced.traces hopening before).append (hentered.append hreturned)

/-! ### Wrappers -/

/-- The end of a node adds no exception. -/
theorem ended {path : Path} {before after : Call} {events : List Event}
    (h : Balanced setting root before events after) (result : Except EngineError Unit)
    (last : Call) : Balanced setting root before (events ++ [.ended path result last]) after :=
  h.append (.passing (.ended path result last) trivial after)

/-- The end of a transaction adds the message of the fault of its backend, if there is one. -/
theorem closed {path : Path} {instruction : Instruction (Handler ω)}
    (hat : root.at? path = some instruction) (hkind : instruction.kind = .transaction)
    {answer : Except Abort Unit} {mid after : Call} {later : List Event}
    {result : Except EngineError Unit} (hclosed : Closed setting mid answer later result after)
    (last : Call) : Balanced setting root mid (later ++ [.ended path result last]) after := by
  cases hclosed with
  | committed => exact .passing (.ended path _ last) trivial mid
  | rolledBack hsignal => exact .passing (.ended path _ last) trivial mid
  | faulted hsignal hsettled =>
    cases hsettled with
    | raised hauthoring => exact .passing (.ended path _ last) trivial mid
    | recorded hauthoring => exact ⟨_, .transaction hat hkind .nil, rfl⟩

end Balanced

/-! ## Whatever is carried out -/

/-- Whether a task can be accounted for. The fault of a transaction belongs to the end of its node,
    so what is inside the notes of a node is accounted for together with the note of its end. -/
def Task.Balanced (setting : Setting ω) (root : Instruction (Handler ω))
    (task : Task (Handler ω)) (before : Call) (events : List Event)
    (result : Except EngineError Unit) (after : Call) : Prop :=
  match task with
  | .wrapped path _ _ => ∀ last,
    OperationPipeline.Balanced setting root before (events ++ [.ended path result last]) after
  | _ => OperationPipeline.Balanced setting root before events after

/-- Everything that is carried out can be accounted for, if handlers leave the exceptions of their
    own outcomes alone. -/
theorem Course.balanced (hspares : ∀ leaf ∈ root.leaves, leaf.2.2.Spares Outcome.exceptions)
    {task : Task (Handler ω)} {before after : Call} {events : List Event}
    {result : Except EngineError Unit} (h : Course setting task before events result after)
    (hplaced : task.Placed root) : task.Balanced setting root before events result after := by
  have hpassing : ∀ event, Event.IsPassing event →
      ∀ call, Balanced setting root call [event] call := Balanced.passing
  induction h with
  | @node path _ _ before after events result h ih =>
    exact (hpassing (.began path before) trivial before).append (ih hplaced after)
  | @plain _ _ _ _ _ _ result htransaction hbenchmark h ih => exact (ih hplaced).ended result
  | @untimed _ _ _ _ _ _ error hkind h ih => exact (ih hplaced).ended (.error error)
  | @timed path instruction _ _ after _ timing hkind h ih =>
    intro last
    have htimed : Balanced setting root after [.ended path (.ok ()) last]
        (after.mapOutcome (·.addInformation [(instruction.label, timing.toJson)])) :=
      .of_quiet (List.forall_mem_singleton.2 ⟨rfl, rfl⟩) rfl
    exact (ih hplaced).append htimed
  | @unbacked path _ _ call hkind hbackend =>
    exact fun last => hpassing (.ended path _ last) trivial call
  | @backed path _ _ before _ _ events later result _ _ _ hkind hbackend hmeets h hclosed ih =>
    intro last
    have hopened := hpassing (.transactionOpened setting.config.transactionMethod
      setting.config.transactionOptions) trivial before
    have hend := (ih hplaced).append (Balanced.closed hplaced.1 hkind hclosed last)
    rw [← List.append_assoc] at hend
    exact hopened.append hend
  | noRound => exact .of_quiet (List.forall_mem_nil _) rfl
  | @round _ _ _ _ mid _ _ _ result _ h hlater ih ihlater =>
    have hanswered :=
      hpassing (.blockAnswered (Setting.blockAnswer result mid.outcome)) trivial mid
    exact (ih hplaced).append (hanswered.append (ihlater hplaced))
  | leaf h => exact .stepped hspares h hplaced
  | block h ih => exact ih hplaced.body
  | nil => exact .of_quiet (List.forall_mem_nil _) rfl
  | raised h ih => exact ih hplaced.head
  | stopped h hstops ih => exact ih hplaced.head
  | next h hstops hlater ih ihlater => exact (ih hplaced.head).append (ihlater hplaced.tail)

theorem CallCourse.balanced {instructions : List (Instruction (Handler ω))}
    (hspares : ∀ leaf ∈ Instruction.leavesAll instructions, leaf.2.2.Spares Outcome.exceptions)
    {start after : Call} {events : List Event} {result : Option (Except EngineError Unit)}
    (h : CallCourse setting instructions start events result after) :
    Balanced setting (.whole instructions) start events after := by
  cases h with
  | skipped hbackend hmeets hevents => exact .traces hevents start
  | walked hopening hclosing h =>
    have hwalked : Balanced setting (.whole instructions) start _ after :=
      h.balanced hspares (Task.placed_whole instructions)
    exact ((Balanced.traces hopening start).append hwalked).append (.traces hclosing after)

end OperationPipeline

import OperationPipeline.Proofs.Accounting

set_option autoImplicit false

/-! # What a reporter is handed

A reporter is handed every fault that is recorded, when it is recorded, and nothing else; whether it
panics makes no difference. Hence, where all exceptions of a call come from its own faults, they are
what the reporter was handed, under the names of the steps (`Setting.faults_accounted`). -/

namespace OperationPipeline

variable {ω : Type}

/-- Whether the call is the same but for exceptions of its outcome. -/
def Call.SameButExceptions (before after : Call) : Prop :=
  after = { before with
    outcome := { before.outcome with exceptions := after.outcome.exceptions } }

namespace Setting

/-! ## Hearing faults -/

/-- Whether what is heard of the faults in the world comes from the reporter of the setting alone,
    which makes each fault heard that it is handed, also if it panics afterwards. -/
structure Hears (setting : Setting ω) (heard : ω → List Fault)
    (instructions : List (Instruction (Handler ω))) : Prop where
  reporter : ∃ reporter, setting.config.reporter = some reporter
    ∧ ∀ fault world, heard (reporter fault world).2 = heard world ++ [fault]
  handlers : ∀ leaf ∈ Instruction.leavesAll instructions,
    Drifts (fun before after => heard after = heard before) leaf.2.2
  transaction : ∀ backend, setting.config.transactionBackend = some backend →
    ∀ method options world, (backend method options world).Drifts
      (fun before after => heard after = heard before) world
  instrumentation : ∀ backend, setting.config.instrumentationBackend = some backend →
    ∀ method traceName options world, (backend method traceName options world).Drifts
      (fun before after => heard after = heard before) world

/-- Whether what is heard in between is what is recorded in between. -/
def Overhears (heard : ω → List Fault) (before after : Logged ω) : Prop :=
  ∃ events, after.log = before.log ++ events
    ∧ heard after.world = heard before.world ++ Event.faults events

namespace Overhears

variable {heard : ω → List Fault}

theorem of_same {before after : ω} (log : List Event) (h : heard after = heard before) :
    Overhears heard ⟨before, log⟩ ⟨after, log⟩ :=
  ⟨[], (List.append_nil log).symm, h.trans (List.append_nil _).symm⟩

/-- What is not recorded need not be heard. -/
theorem of_note {event : Event} (hevent : event.fault? = none) (world : Logged ω) :
    Overhears heard world ⟨world.world, world.log ++ [event]⟩ := by
  refine ⟨[event], rfl, ?_⟩
  have hnone : Event.faults [event] = [] := List.filterMap_cons_none hevent
  rw [hnone, List.append_nil]

theorem trans {before mid after : Logged ω} (h : Overhears heard before mid)
    (hlater : Overhears heard mid after) : Overhears heard before after := by
  obtain ⟨events, hlog, hheard⟩ := h
  obtain ⟨events', hlog', hheard'⟩ := hlater
  refine ⟨events ++ events', ?_, ?_⟩
  · rw [hlog', hlog, List.append_assoc]
  · rw [hheard', hheard, Event.faults_append, List.append_assoc]

/-- A backend that makes nothing heard does not when its calls and its block are noted either. -/
theorem drifts_logged {α β : Type} {interaction : Interaction ω α β} {before : ω}
    (h : interaction.Drifts (fun before after => heard after = heard before) before)
    {note : α → Event} (hnote : ∀ answer, (note answer).fault? = none) {opening : Event}
    (hopening : opening.fault? = none) (log : List Event) :
    (interaction.logged note (log ++ [opening])).Drifts (Overhears heard) ⟨before, log⟩ := by
  have hlogged := h.logged (Overhears heard) note of_same
    (fun answer world => of_note (hnote answer) world) trans (log ++ [opening])
  exact hlogged.from_earlier (of_note hopening ⟨before, log⟩) trans

end Overhears

namespace Hears

variable {setting : Setting ω} {heard : ω → List Fault}
  {instructions : List (Instruction (Handler ω))}

theorem carries (h : setting.Hears heard instructions) :
    setting.logged.Carries (Overhears heard) where
  refl world := .of_same world.log rfl
  trans := Overhears.trans
  report fault world := by
    obtain ⟨reporter, hreporter, hheard⟩ := h.reporter
    have hreport : setting.report fault world.world = (reporter fault world.world).2 := by
      rw [report, hreporter]
    refine ⟨[.recorded fault], rfl, ?_⟩
    exact (congrArg heard hreport).trans (hheard fault world.world)
  transaction backend hbackend method options world := by
    obtain ⟨plain, hplain, rfl⟩ := Option.map_eq_some_iff.1 hbackend
    exact Overhears.drifts_logged (h.transaction plain hplain method options world.world)
      (fun _ => rfl) rfl world.log
  instrumentation backend hbackend method traceName options world := by
    obtain ⟨plain, hplain, rfl⟩ := Option.map_eq_some_iff.1 hbackend
    exact Overhears.drifts_logged
      (h.instrumentation plain hplain method traceName options world.world)
      (fun _ => rfl) rfl world.log

theorem drifts_handler (h : setting.Hears heard instructions)
    {leaf : Kind × String × Handler ω} (hleaf : leaf ∈ Instruction.leavesAll instructions)
    (path : Path) : Drifts (Overhears heard) (leaf.2.2.logged path) :=
  fun state => ⟨_, rfl, (h.handlers leaf hleaf state.plain).trans (List.append_nil _).symm⟩

/-- However a call ends, what has been heard during it is what has been recorded. -/
theorem heard_perform (h : setting.Hears heard instructions) (arguments : Arguments) (world : ω) :
    heard (setting.perform instructions arguments world).2
      = heard world ++ Event.faults (setting.transcript instructions arguments world) := by
  cases hvalid : setting.config.validate with
  | error error =>
    rw [perform, transcript, hvalid]
    exact (List.append_nil _).symm
  | ok u =>
    obtain ⟨events, hlog, hheard⟩ := h.carries.drifts_followCall
      (fun _ world hevent => Overhears.of_note (Event.fault?_eq_none hevent) world)
      (fun _ hleaf path => h.drifts_handler hleaf path) arguments world
    rw [plain_followCall setting instructions arguments world hvalid, transcript, hvalid]
    dsimp only
    rw [hlog, List.nil_append, ← hheard]
    generalize setting.followCall instructions arguments world = ended
    obtain ⟨result, after⟩ := ended
    cases result with
    | none => rfl
    | some result => cases result <;> rfl

end Hears

/-! ## What a fault leaves alone -/

variable (setting : Setting ω)

theorem sameButExceptions_recordFault (step : String) (fault : Fault) (state : State ω) :
    state.call.SameButExceptions (setting.recordFault step fault state).call := rfl

/-- Whatever the kind of a step, its fault changes nothing in the call but the exceptions. -/
theorem walkLeaf_of_fault (kind : Kind) {step : String} {handler : Handler ω}
    {state mid : State ω} {ending : HandlerEnd} {fault : Fault}
    (hentered : setting.instrumented ("#" ++ step) .step
      (fun state => handler (setting.traced step state)) state = (some ending, mid))
    (hfault : ending.result = .error fault) (hauthoring : fault.authoring? = none) :
    ∃ after, setting.walkLeaf kind step handler state = (.ok (), after)
      ∧ mid.call.SameButExceptions after.call := by
  refine ⟨_, ?_, setting.sameButExceptions_recordFault step fault.recovered mid⟩
  rw [walkLeaf, withAnswer, setting.callStep_of_fault hentered hfault hauthoring]

/-! ## The account of a call -/

/-- The account of faults. If the handlers of a call that goes through leave the exceptions of their
    own outcomes alone, there are postings such that

    * each fault is that of a handler that has just returned or that of a transaction that is about
      to end, and each of these accounts for one fault at most,
    * the faults that are recorded, and those that a reporter is handed, are those that are posted,
      in the same order; where failed outcomes are taken over, none is recorded and none reported,
    * the exceptions of the outcome are the texts of the postings, joined in turn, and
    * if no exceptions are taken over, these are the messages of the faults under the qualified
      names of their steps, for each name in the order in which they were reported.

    A fault changes nothing in a call but the exceptions, whatever the kind of the step. -/
theorem faults_accounted {instructions : List (Instruction (Handler ω))}
    (hspares : ∀ leaf ∈ Instruction.leavesAll instructions, leaf.2.2.Spares Outcome.exceptions)
    (arguments : Arguments) (world : ω) {outcome : Outcome}
    (hperform : (setting.perform instructions arguments world).1 = .ok outcome) :
    let events := setting.transcript instructions arguments world
    (∃ postings : List Posting,
      let records := postings.filterMap (Posting.record? setting.name)
      Accounted (.whole instructions) events postings
        ∧ (postings.filterMap Posting.debtor?).Sublist (events.filterMap Event.debtor?)
        ∧ postings.filterMap Posting.fault? = Event.faults events
        ∧ records.map (·.2) = (Event.faults events).map Fault.message
        ∧ outcome.exceptions
          = Entries.joinAll (· ++ ·) [] (postings.flatMap (Posting.texts setting.name))
        ∧ ((∀ event ∈ events, ∀ failed ∈ event.failed (.whole instructions),
            failed.exceptions = []) →
          outcome.exceptions
              = Entries.joinAll (· ++ ·) [] (records.map fun record => (record.1, [record.2]))
            ∧ ∀ key, (outcome.exceptions.at? key).getD []
              = (records.filter (·.1 == key)).map (·.2)))
      ∧ (∀ heard, setting.Hears heard instructions →
        heard (setting.perform instructions arguments world).2
          = heard world ++ Event.faults events)
      ∧ (∀ (kind : Kind) (step : String) (handler : Handler ω) (state mid : State ω)
          (ending : HandlerEnd) (fault : Fault),
        setting.instrumented ("#" ++ step) .step (fun state => handler (setting.traced step state))
          state = (some ending, mid) →
        ending.result = .error fault → fault.authoring? = none →
          ∃ after, setting.walkLeaf kind step handler state = (.ok (), after)
            ∧ mid.call.SameButExceptions after.call)
      ∧ ∀ (backend : TransactionBackend ω) (body : State ω → Except EngineError Unit × State ω)
          (state : State ω) (abort : Abort) (fault : Fault) (call : Call) (world : ω),
        setting.config.transactionBackend = some backend →
        (backend setting.config.transactionMethod setting.config.transactionOptions
          state.world).drive (transactionBlock body) state.call = (.error abort, call, world) →
        abort.fault? = some fault → fault.authoring? = none →
          ∃ after, setting.runTransaction body state = (.ok (), after)
            ∧ call.SameButExceptions after.call := by
  intro events
  refine ⟨?_, fun heard hhears => hhears.heard_perform arguments world, ?_, ?_⟩
  · obtain ⟨htranscript, -, rfl⟩ := of_perform_eq_ok hperform
    have hcourse := setting.takes_followCall instructions arguments world
    rw [← htranscript] at hcourse
    obtain ⟨postings, haccounted, hexceptions⟩ := hcourse.balanced hspares
    have hmessages := Posting.messages_record? setting.name postings
    rw [haccounted.faults_eq] at hmessages
    refine ⟨postings, haccounted, haccounted.debtors_sublist, haccounted.faults_eq, hmessages,
      hexceptions, fun hnone => ?_⟩
    have hrecorded := hexceptions
    rw [haccounted.texts_eq hnone] at hrecorded
    refine ⟨hrecorded, fun key => ?_⟩
    rw [hrecorded, Entries.getD_at?_joinAll_append]
    -- each record adds a single text
    rw [List.filter_map, List.flatMap_map]
    exact List.map_eq_flatMap.symm
  · intro kind step handler state mid ending fault hentered hfault hauthoring
    exact setting.walkLeaf_of_fault kind hentered hfault hauthoring
  · intro backend body state abort fault call world hbackend hended hfault hauthoring
    exact ⟨_, setting.runTransaction_of_fault hbackend hended hfault hauthoring,
      setting.sameButExceptions_recordFault transactionStep fault.recovered ⟨call, world⟩⟩

/-- A setting whose world is the list of the faults that were reported. Its reporter panics after
    each of them, and its transaction backend runs its block and fails. -/
def unreliable : Setting (List Fault) :=
  { reporting with
    name := some "Order"
    config :=
      { reporter := some fun fault reported => (.panicked, reported ++ [fault])
        transactionBackend := some fun _ _ reported =>
          .once reported fun _ reported =>
            (.error (Abort.ofFault (Fault.ofText "connection lost")), reported) } }

/-- Two steps that fault, in a group inside a transaction. -/
def faultsInTransaction : List (Instruction (Handler (List Fault))) :=
  [.block .transaction
    [.block .success
      [.leaf .step "reserve" (raising (Fault.ofText "out of stock")),
        .leaf .validate "reserve" (raising (Fault.ofText "no price"))]]]

/-- Three faults are reported, and their messages are the exceptions. -/
theorem reports_are_exceptions :
    (∀ leaf ∈ Instruction.leavesAll faultsInTransaction, leaf.2.2.Spares Outcome.exceptions)
      ∧ unreliable.Hears id faultsInTransaction
      ∧ ∃ outcome, (unreliable.perform faultsInTransaction {} []).1 = .ok outcome
        ∧ (unreliable.perform faultsInTransaction {} []).2.map Fault.message
          = ["out of stock", "no price", "connection lost"]
        ∧ (outcome.exceptions.at? "Order#reserve").getD [] = ["out of stock", "no price"]
        ∧ (outcome.exceptions.at? "Order#transaction").getD [] = ["connection lost"] := by
  have hleaves : ∀ property : Handler (List Fault) → Prop,
      (∀ fault, property (raising fault)) →
        ∀ leaf ∈ Instruction.leavesAll faultsInTransaction, property leaf.2.2 := by
    intro property hproperty leaf hleaf
    simp only [faultsInTransaction, Instruction.leavesAll, Instruction.leaves, List.cons_append,
      List.nil_append, List.append_nil, List.mem_cons, List.not_mem_nil, or_false] at hleaf
    rcases hleaf with rfl | rfl <;> exact hproperty _
  have hspares : ∀ leaf ∈ Instruction.leavesAll faultsInTransaction,
      leaf.2.2.Spares Outcome.exceptions :=
    hleaves (·.Spares Outcome.exceptions) fun _ _ => rfl
  have hhears : unreliable.Hears id faultsInTransaction := {
    reporter := ⟨_, rfl, fun _ _ => rfl⟩
    handlers := hleaves (Drifts _) fun _ _ => rfl
    transaction := fun _ hbackend _ _ _ => by
      obtain rfl := Option.some.inj hbackend
      exact ⟨rfl, fun _ _ => rfl⟩
    instrumentation := fun _ hbackend => nomatch hbackend }
  obtain ⟨-, hheard, -, -⟩ := unreliable.faults_accounted hspares {} [] rfl
  have hreported : (unreliable.perform faultsInTransaction {} []).2.map Fault.message = _ :=
    congrArg (List.map Fault.message) (hheard id hhears)
  exact ⟨hspares, hhears, _, rfl, hreported, by decide, by decide⟩

end Setting

end OperationPipeline

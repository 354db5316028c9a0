import OperationPipeline.Proofs.Transacted

set_option autoImplicit false

/-! # Timing

A benchmark does what the work in it does, and notes under its label how long that took. So whoever
looks at everything but the labels of some benchmarks cannot tell whether these are benchmarks or
transactions that change nothing (`Setting.benchmarks_only_note_time`), wherever they stand; and all
that is under the labels is durations. -/

namespace OperationPipeline

variable {ω ν : Type}

/-- The vantage point of those who look at everything. -/
def Vantage.attentive (view : ω → ν) (value : Json → Json) : Vantage ω ν where
  world := view
  value := value
  trace := true
  instrumentation := true

/-- Whether the instrumentation, the reporter and the clock of a setting go by nothing of the world
    but what is seen of it, where durations are seen as `value` shows them. -/
structure Setting.ObservesBy (setting : Setting ω) (view : ω → ν) (value : Json → Json) :
    Prop where
  instrumentation : ∀ backend, setting.config.instrumentationBackend = some backend →
    backend.Respects view
  reporter (fault : Fault) (world world' : ω) (h : view world = view world') :
    view (setting.report fault world) = view (setting.report fault world')
  clock (before before' after after' : ω) (hbefore : view before = view before')
    (hafter : view after = view after') :
    value (setting.clock before after).toJson = value (setting.clock before' after').toJson

/-- Whether a handler has nothing to do with the entries under the labels: as far as is seen it does
    the same whatever is under them, it leaves them alone, and no outcome that it answers with has
    entries under them. -/
structure Handler.Ignores (see : Vantage ω ν) (labels : List String) (handler : Handler ω) :
    Prop where
  reads : (see.besides labels).Agree (see.besides labels).ending handler handler
  writes (state : State ω) (label : String) (h : label ∈ labels) :
    (handler state).2.call.outcome.information.at? label
      = state.call.outcome.information.at? label
  answers (state : State ω) (outcome : Outcome)
    (hanswer : (handler state).1 = .answered (.outcome outcome)) (label : String)
    (h : label ∈ labels) : outcome.information.at? label = none

namespace Setting

variable {see : Vantage ω ν} {setting : Setting ω} {labels : List String}

/-- What goes by nothing but what is seen runs in step with itself in a world with a log. -/
theorem ObservesBy.inStep (h : setting.ObservesBy see.world see.value) (labels : List String) :
    InStep (see.besides labels).logged setting.logged setting.logged := by
  rw [← see.besides_onLogs]
  refine inStep_besides ?_ ?_ ?_
  · intro fault world world' hworld
    obtain ⟨hworlds, hlogs⟩ := Sight.world_logged_eq_iff.1 hworld
    exact Sight.world_logged_eq_iff.2
      ⟨h.reporter fault _ _ hworlds, Sight.events_append_congr hlogs rfl⟩
  · intro before before' after after' hbefore hafter
    exact h.clock _ _ _ _ (Sight.world_logged_eq_iff.1 hbefore).1
      (Sight.world_logged_eq_iff.1 hafter).1
  · intro _ _ view traceName level work work' hwork
    rw [see.besides_onLogs] at hwork ⊢
    exact agree_instrumented_logged rfl rfl rfl h.instrumentation view traceName hwork

/-! ## Nodes -/

/-- All that is raised inside a node describes a wrongly declared or configured operation. -/
theorem isAuthoring_of_followInside (instruction : Instruction (Handler ω)) (path : Path)
    (inherited : Kind) (state : State (Logged ω)) (error : EngineError)
    (h : (setting.followInside instruction path inherited state).1 = .error error) :
    error.isAuthoring = true := by
  obtain ⟨events, -, hcourse⟩ := setting.takes_followInside instruction path inherited state
  exact hcourse.isAuthoring h

section Transacted

variable {backend : TransactionBackend ω} {chosen : Path → Bool}
  (hbackend : setting.config.transactionBackend = some backend)
  (hfaithful : backend.Faithful see.world) (hobservers : setting.ObservesBy see.world see.value)

section Wrappers

variable {work work' : State (Logged ω) → Except EngineError Unit × State (Logged ω)}

include hbackend hfaithful in
/-- In a world with a log, too, a transaction does what its body does. -/
theorem agree_transaction
    (hauthoring : ∀ state error, (work' state).1 = .error error → error.isAuthoring = true)
    (hwork : (see.besides labels).logged.Agree id work work') :
    (see.besides labels).logged.Agree id work (setting.logged.runTransaction work') := by
  have hlogged : setting.logged.config.transactionBackend = some backend.logged :=
    congrArg (Option.map TransactionBackend.logged) hbackend
  have hspares : backend.Faithful (see.besides labels).world := hfaithful
  exact agree_runTransaction_right hlogged (hspares.logged (fun _ _ => rfl) fun _ => rfl)
    hauthoring hwork

include hbackend hfaithful hobservers in
/-- The wrappers of a node and of what becomes of it do the same if the work in them does. -/
theorem agree_around_transacted (path : Path) (kind : Kind) {label : String}
    (hlabel : kind.isChosen chosen path = true → label ∈ labels)
    (hauthoring : ∀ state error, (work state).1 = .error error → error.isAuthoring = true)
    (hauthoring' : ∀ state error, (work' state).1 = .error error → error.isAuthoring = true)
    (hwork : (see.besides labels).logged.Agree id work work') :
    (see.besides labels).logged.Agree id (setting.logged.around kind label work)
      (setting.logged.around (kind.transacted chosen path) label work') := by
  rw [Kind.transacted]
  split
  · rename_i hchosen
    have htransaction := agree_transaction hbackend hfaithful hauthoring' hwork
    obtain ⟨rfl, -⟩ := Kind.isChosen_iff.1 hchosen
    rw [← see.besides_onLogs] at htransaction ⊢
    exact agree_hidden_benchmark (hlabel hchosen) htransaction
  · cases kind with
    | transaction =>
      have hleft := agree_transaction hbackend hfaithful hauthoring hwork.symm
      exact agree_transaction hbackend hfaithful hauthoring' hleft.symm
    | benchmark => exact (hobservers.inStep labels).agree_runBenchmark label hwork
    | _ => exact hwork

end Wrappers

include hbackend hfaithful hobservers in
/-- A node and what becomes of it do the same if what is inside them does. -/
theorem agree_node {instruction : Instruction (Handler ω)} {path : Path} {inherited : Kind}
    (hlabels : ∀ label ∈ instruction.chosenLabels chosen path, label ∈ labels)
    (hinside : (see.besides labels).logged.Agree id
      (setting.followInside instruction path inherited)
      (setting.followInside (instruction.transacted chosen path) path inherited)) :
    (see.besides labels).logged.Agree id (setting.follow instruction path inherited)
      (setting.follow (instruction.transacted chosen path) path inherited) := by
  have hlabel : instruction.kind.isChosen chosen path = true → instruction.label ∈ labels := by
    intro hchosen
    have hat : instruction.at? [] = some instruction := by rw [Instruction.at?]
    refine hlabels _ (Instruction.label_mem_chosenLabels hat path ?_)
    rwa [List.append_nil]
  rw [follow_eq, follow_eq, Instruction.kind_transacted, Instruction.label_transacted]
  exact agree_noted path (agree_around_transacted hbackend hfaithful hobservers path _ hlabel
    (isAuthoring_of_followInside instruction path inherited)
    (isAuthoring_of_followInside (instruction.transacted chosen path) path inherited) hinside)

end Transacted

/-! ## The tree -/

variable {backend : TransactionBackend ω} {chosen : Path → Bool}

mutual

theorem agree_follow_transacted (hbackend : setting.config.transactionBackend = some backend)
    (hfaithful : backend.Faithful see.world)
    (hobservers : setting.ObservesBy see.world see.value) :
    (instruction : Instruction (Handler ω)) → (path : Path) → (inherited : Kind) →
    (∀ label ∈ instruction.chosenLabels chosen path, label ∈ labels) →
    (∀ leaf ∈ instruction.leaves, leaf.2.2.Ignores see labels) →
    (see.besides labels).logged.Agree id (setting.follow instruction path inherited)
      (setting.follow (instruction.transacted chosen path) path inherited)
  | .leaf kind name handler, path, inherited, hlabels, hleaves => by
    refine agree_node hbackend hfaithful hobservers hlabels ?_
    have hhandler := (hleaves (kind, name, handler) List.mem_cons_self).reads.logged_handler path
    have hkind : Scope.leafKind (kind.transacted chosen path) inherited
        = Scope.leafKind kind inherited :=
      congrArg Scope.leaf (Scope.inside_transacted chosen path kind inherited)
    rw [Instruction.transacted, followInside, followInside, hkind]
    exact (hobservers.inStep labels).agree_walkLeaf (Scope.leafKind kind inherited) name hhandler
  | .block kind body, path, inherited, hlabels, hleaves => by
    refine agree_node hbackend hfaithful hobservers hlabels ?_
    rw [Instruction.transacted, followInside, followInside, Scope.inside_transacted]
    rw [Instruction.chosenLabels] at hlabels
    exact agree_followAll_transacted hbackend hfaithful hobservers body path 0
      (Scope.inside kind inherited) (List.forall_mem_append.1 hlabels).2 hleaves
termination_by structural instruction => instruction

theorem agree_followAll_transacted (hbackend : setting.config.transactionBackend = some backend)
    (hfaithful : backend.Faithful see.world)
    (hobservers : setting.ObservesBy see.world see.value) :
    (body : List (Instruction (Handler ω))) → (path : Path) → (index : Nat) → (scope : Scope) →
    (∀ label ∈ Instruction.chosenLabelsAll chosen body path index, label ∈ labels) →
    (∀ leaf ∈ Instruction.leavesAll body, leaf.2.2.Ignores see labels) →
    (see.besides labels).logged.Agree id (setting.followAll body path index scope)
      (setting.followAll (Instruction.transactedAll chosen body path index) path index scope)
  | [], _, _, _, _, _ => fun _ _ hstate => ⟨rfl, hstate⟩
  | instruction :: rest, path, index, scope, hlabels, hleaves => by
    rw [Instruction.chosenLabelsAll] at hlabels
    obtain ⟨hfirst, hlater⟩ := List.forall_mem_append.1 hlabels
    obtain ⟨hleaf, hleaves⟩ := List.forall_mem_append.1 hleaves
    rw [Instruction.transactedAll, followAll_cons_eq_goOn, followAll_cons_eq_goOn]
    exact agree_goOn scope
      (agree_follow_transacted hbackend hfaithful hobservers instruction (path ++ [index])
        scope.leaf hfirst hleaf)
      (agree_followAll_transacted hbackend hfaithful hobservers rest path (index + 1) scope hlater
        hleaves)
termination_by structural body => body

end

end Setting

/-! ## What is noted -/

/-- Whether there is a duration under the label in the information. -/
def Outcome.Timed (outcome : Outcome) (label : String) : Prop :=
  ∃ timing : Timing, outcome.information.at? label = some timing.toJson

/-- Taking an answer leaves alone what is under a key that is not in the answer. -/
theorem Setting.Accepts.information_at? {setting : Setting ω} {step : String}
    {before after : Call} {kind : Kind} {answer : Answer} {result : Except EngineError Unit}
    (h : setting.Accepts step before kind answer result after) {key : String}
    (hanswer : ∀ outcome, answer = .outcome outcome → outcome.information.at? key = none) :
    after.outcome.information.at? key = before.outcome.information.at? key := by
  have hmerge : ∀ outcome other, (Outcome.mergeFailures outcome other).information
      = outcome.information := Outcome.view_mergeFailures Outcome.information fun _ _ _ => rfl
  have hnest : ∀ entry outcome, (setting.nest step entry outcome).information
      = outcome.information := by
    intro entry outcome
    rw [nest]
    split <;> rfl
  cases h with
  | failed hfailure => exact congrArg (Entries.at? key) (hmerge _ _)
  | verdictFailed hfailure =>
    exact congrArg (Entries.at? key)
      (Outcome.view_addErrors Outcome.information (fun _ _ => rfl) _ _)
  | @operationPassed outcome hsuccess =>
    have hinformed := Entries.at?_placeAll_of_none (hanswer outcome rfl)
      before.outcome.information
    exact (congrArg (Entries.at? key) (hnest _ _)).trans hinformed
  | @operationFailed outcome hfailure =>
    have hinformed := Entries.at?_placeAll_of_none (hanswer outcome rfl)
      before.outcome.information
    exact (congrArg (Entries.at? key) (hmerge _ _)).trans hinformed
  | operationsPassed hnone => exact congrArg (Entries.at? key) (hnest _ _)
  | operationsFailed hsome =>
    exact congrArg (Entries.at? key)
      (Outcome.view_foldl_mergeFailures Outcome.information (fun _ _ _ => rfl) _ _)
  | _ => rfl

section Noted

variable {setting : Setting ω} {root : Instruction (Handler ω)} {see : Vantage ω ν}
  {labels : List String}

/-- While handlers have nothing to do with a label, a duration under it is only ever replaced by
    another one. -/
theorem threads_timed (hignores : ∀ leaf ∈ root.leaves, leaf.2.2.Ignores see labels)
    {label : String} (hlabel : label ∈ labels) :
    Threads setting root fun before _ after =>
      before.outcome.Timed label → after.outcome.Timed label := by
  have htraced : ∀ step call, (setting.tracedCall step call).outcome.information
      = call.outcome.information := by
    intro step call
    rw [Setting.tracedCall]
    split <;> rfl
  have hignored : ∀ {path kind step handler}, root.at? path = some (.leaf kind step handler) →
      handler.Ignores see labels :=
    fun hat => hignores _ (Instruction.leaves_subset_of_at? hat List.mem_cons_self)
  have hmid : ∀ {path kind step handler before ending mid},
      root.at? path = some (.leaf kind step handler) →
      handler.Leads (setting.tracedCall step before) ending mid →
      mid.outcome.information.at? label = before.outcome.information.at? label := by
    rintro path kind step handler before ending mid hat ⟨world, world', hrun⟩
    have hwrites := (hignored hat).writes ⟨setting.tracedCall step before, world⟩ label hlabel
    rwa [hrun, htraced] at hwrites
  constructor
  case nil => exact fun call => id
  case append => exact fun h hlater htimed => hlater (h htimed)
  case passing => exact fun event hevent call => id
  case timed =>
    rintro call other timing ⟨noted, hnoted⟩
    by_cases hother : other = label
    · exact ⟨timing, (Entries.at?_place _ _ _ _).trans (if_pos hother)⟩
    · exact ⟨noted, ((Entries.at?_place _ _ _ _).trans (if_neg hother)).trans hnoted⟩
  case settled =>
    intro step fault before after events result hsettled
    cases hsettled <;> exact id
  case answered =>
    rintro path kind step handler before mid after ending answer result hat hhandler hanswer
      haccepts ⟨noted, hnoted⟩
    have hleads := hmid hat hhandler
    have hanswers : ∀ outcome, answer = .outcome outcome →
        outcome.information.at? label = none := by
      rintro outcome rfl
      obtain ⟨world, world', hrun⟩ := hhandler
      refine (hignored hat).answers ⟨setting.tracedCall step before, world⟩ outcome ?_ label hlabel
      rw [hrun]
      exact HandlerEnd.eq_answered hanswer
    exact ⟨noted, ((haccepts.information_at? hanswers).trans hleads).trans hnoted⟩
  case faulted =>
    rintro path kind step handler before mid ending fault hat hhandler hfault ⟨noted, hnoted⟩
    exact ⟨noted, (hmid hat hhandler).trans hnoted⟩

/-- A benchmark that is left without an error has noted how long it took. -/
theorem Course.timed_of_wrapped {path : Path} {instruction : Instruction (Handler ω)}
    {inherited : Kind} {before after : Call} {events : List Event}
    (h : Course setting (.wrapped path instruction inherited) before events (.ok ()) after)
    (hkind : instruction.kind = .benchmark) : after.outcome.Timed instruction.label := by
  cases h with
  | plain htransaction hbenchmark h => exact absurd hkind hbenchmark
  | timed hkind h => exact ⟨_, (Entries.at?_place _ _ _ _).trans (if_pos rfl)⟩
  | backed htransaction hbackend hmeets h hclosed =>
    exact nomatch hkind.symm.trans htransaction

/-- What a benchmark has noted is there when it ends, and at the end of whatever it is part of. -/
theorem Course.timed_of_ended {task : Task (Handler ω)} {before after : Call}
    {events : List Event} {result : Except EngineError Unit}
    (h : Course setting task before events result after) (hplaced : task.Placed root)
    {place : Path} {node : Instruction (Handler ω)} (hat : root.at? place = some node)
    (hkind : node.kind = .benchmark)
    (hkeeps : Threads setting root fun before _ after =>
      before.outcome.Timed node.label → after.outcome.Timed node.label)
    {call : Call} (hevent : .ended place (.ok ()) call ∈ events) :
    call.outcome.Timed node.label ∧ after.outcome.Timed node.label := by
  induction h with
  | node h ih =>
    simp only [List.mem_cons, List.mem_append, List.not_mem_nil, or_false, reduceCtorEq,
      false_or] at hevent
    rcases hevent with hevent | hevent
    · exact ih hplaced hevent
    · obtain ⟨rfl, rfl, rfl⟩ := Event.ended.inj hevent
      obtain rfl := Option.some.inj (hplaced.1.symm.trans hat)
      exact ⟨h.timed_of_wrapped hkind, h.timed_of_wrapped hkind⟩
  | plain htransaction hbenchmark h ih => exact ih hplaced hevent
  | untimed hbenchmark h ih => exact ih hplaced hevent
  | timed hbenchmark h ih =>
    obtain ⟨hcall, hafter⟩ := ih hplaced hevent
    exact ⟨hcall, hkeeps.timed _ _ _ hafter⟩
  | unbacked htransaction hbackend => exact nomatch hevent
  | backed htransaction hbackend hmeets h hclosed ih =>
    simp only [List.mem_cons, List.mem_append, reduceCtorEq, false_or] at hevent
    rcases hevent with hevent | hevent
    · obtain ⟨hcall, hmid⟩ := ih hplaced hevent
      exact ⟨hcall, hkeeps.closed hclosed hmid⟩
    · obtain ⟨recorded, hrecorded⟩ := hclosed.eq_recorded hevent
      exact nomatch hrecorded
  | noRound => exact nomatch hevent
  | round h hlater ih ihlater =>
    simp only [List.mem_append, List.mem_cons, reduceCtorEq, false_or] at hevent
    rcases hevent with hevent | hevent
    · obtain ⟨hcall, hmid⟩ := ih hplaced hevent
      exact ⟨hcall, hlater.threads hkeeps hplaced hmid⟩
    · exact ihlater hplaced hevent
  | leaf h => exact (h.not_mark hevent trivial).elim
  | block h ih => exact ih hplaced.body hevent
  | nil => exact nomatch hevent
  | raised h ih => exact ih hplaced.head hevent
  | stopped h hstops ih => exact ih hplaced.head hevent
  | next h hstops hlater ih ihlater =>
    rcases List.mem_append.1 hevent with hevent | hevent
    · obtain ⟨hcall, hmid⟩ := ih hplaced.head hevent
      exact ⟨hcall, hlater.threads hkeeps hplaced.tail hmid⟩
    · exact ihlater hplaced.tail hevent

theorem CallCourse.timed_of_ended {instructions : List (Instruction (Handler ω))}
    {start after : Call} {events : List Event} {result : Option (Except EngineError Unit)}
    (h : CallCourse setting instructions start events result after) {place : Path}
    {node : Instruction (Handler ω)}
    (hat : (Instruction.whole instructions).at? place = some node)
    (hkind : node.kind = .benchmark)
    (hkeeps : Threads setting (.whole instructions) fun before _ after =>
      before.outcome.Timed node.label → after.outcome.Timed node.label)
    {call : Call} (hevent : .ended place (.ok ()) call ∈ events) :
    call.outcome.Timed node.label ∧ after.outcome.Timed node.label := by
  cases h with
  | skipped hbackend hmeets hevents => exact (hevents _ hevent).elim
  | walked hopening hclosing h =>
    rcases List.mem_append.1 hevent with hevent | hevent
    · rcases List.mem_append.1 hevent with hevent | hevent
      · exact (hopening _ hevent).elim
      · exact h.timed_of_ended (Task.placed_whole instructions) hat hkind hkeeps hevent
    · exact (hclosing _ hevent).elim

end Noted

/-! ## Whole calls -/

/-- The path of the step whose handler is entered, with the context of the call and whether it is
    finished, if the event is such an entry. -/
def Event.entry? : Event → Option (Path × Context × Bool)
  | .entered path call => some (path, call.context, call.finished)
  | _ => none

/-- All entries are seen. -/
theorem Vantage.filterMap_entry?_besides (see : Vantage ω ν) (labels : List String)
    (events : List Event) :
    ((see.besides labels).events events).filterMap Event.entry?
      = events.filterMap Event.entry? := by
  have hseen : ∀ event, ((see.besides labels).event event).bind Event.entry? = event.entry? := by
    intro event
    cases event with
    | traceOpened method traceName options =>
      simp only [Vantage.besides, Vantage.event]
      split <;> rfl
    | traceRan =>
      simp only [Vantage.besides, Vantage.event]
      split <;> rfl
    | _ => rfl
  rw [Sight.events, List.filterMap_filterMap]
  exact congrArg (List.filterMap · events) (funext hseen)

/-- Whether two outcomes are the same in all five fields but for the entries under the labels, where
    of the other entries in the information `value` is seen. -/
structure Outcome.SameBut (value : Json → Json) (labels : List String) (outcome other : Outcome) :
    Prop where
  errors : outcome.errors = other.errors
  exceptions : outcome.exceptions = other.exceptions
  trace : outcome.trace = other.trace
  output : outcome.output = other.output
  information (key : String) (h : key ∉ labels) :
    (outcome.information.at? key).map value = (other.information.at? key).map value

theorem Outcome.SameBut.of_besides {view : ω → ν} {value : Json → Json} {labels : List String}
    {outcome other : Outcome}
    (h : ((Vantage.attentive view value).outcome outcome).besides labels
      = ((Vantage.attentive view value).outcome other).besides labels) :
    outcome.SameBut value labels other where
  errors := (congrArg Outcome.errors h :)
  exceptions := (congrArg Outcome.exceptions h :)
  trace := (congrArg Outcome.trace h :)
  output := (congrArg Outcome.output h :)
  information key hkey := by
    let see := Vantage.attentive view value
    have hseen : ∀ outcome : Outcome, (((see.outcome outcome).besides labels).information.at? key)
        = (outcome.information.at? key).map value := by
      intro outcome
      refine (Entries.at?_besides labels _ key).trans ?_
      rw [if_neg hkey]
      exact see.at?_information key outcome.information
    rw [← hseen, ← hseen]
    exact congrArg (fun outcome : Outcome => outcome.information.at? key) h

namespace Setting

/-- What a benchmark has noted is there when it ends, and in the outcome of the call. -/
theorem timed_of_ended {setting : Setting ω} {instructions : List (Instruction (Handler ω))}
    {arguments : Arguments} {world : ω} {path : Path} {node : Instruction (Handler ω)} {call : Call}
    (hat : (Instruction.whole instructions).at? path = some node) (hkind : node.kind = .benchmark)
    (hkeeps : Threads setting (.whole instructions) fun before _ after =>
      before.outcome.Timed node.label → after.outcome.Timed node.label)
    (hevent : .ended path (.ok ()) call ∈ setting.transcript instructions arguments world) :
    call.outcome.Timed node.label
      ∧ ∀ outcome, (setting.perform instructions arguments world).1 = .ok outcome →
        outcome.Timed node.label := by
  have hcourse := setting.takes_followCall instructions arguments world
  cases hvalid : setting.config.validate with
  | error error =>
    rw [transcript, hvalid] at hevent
    cases hevent
  | ok u =>
    rw [transcript, hvalid] at hevent
    obtain ⟨hcall, hafter⟩ := hcourse.timed_of_ended hat hkind hkeeps hevent
    refine ⟨hcall, fun outcome hperform => ?_⟩
    obtain ⟨-, -, houtcome⟩ := of_perform_eq_ok hperform
    rwa [houtcome] at hafter

/-- Timing some nodes changes nothing but what is noted under their labels. Take any instructions
    and any choice of benchmarks among them, over single steps or over blocks and nested in any way;
    a transaction backend that runs its block exactly once, hands on its answer and does nothing
    else that is seen of the world (`view`); observers and a clock that go by what is seen; and
    handlers that have nothing to do with the labels of the chosen nodes, nor have the outcomes that
    they answer with. With transactions in place of the chosen benchmarks, a call raises the same
    error, or it returns an outcome that is the same in all five fields but for what is under these
    labels in the information (where `value` may leave out the durations that other benchmarks
    note). The same handlers are entered in the same order, with the same context and the same
    finished flag, and besides the talk with the transaction backend the same happens all along.

    Each chosen benchmark that is left without an error has noted a duration under its label, the
    names of all its steps in order joined by `-`, and there is one in the outcome of the call. -/
theorem benchmarks_only_note_time (setting : Setting ω) (view : ω → ν) (value : Json → Json)
    {backend : TransactionBackend ω} (hbackend : setting.config.transactionBackend = some backend)
    (hfaithful : backend.Faithful view) (hobservers : setting.ObservesBy view value)
    {instructions : List (Instruction (Handler ω))} (chosen : Path → Bool)
    (hhandlers : ∀ leaf ∈ Instruction.leavesAll instructions,
      leaf.2.2.Ignores (.attentive view value)
        (Instruction.chosenLabelsAll chosen instructions [] 0))
    (arguments : Arguments) {world world' : ω} (hworld : view world = view world') :
    let labels := Instruction.chosenLabelsAll chosen instructions [] 0
    let transacted := Instruction.transactedAll chosen instructions [] 0
    let ended := setting.perform instructions arguments world
    let ended' := setting.perform transacted arguments world'
    let happened := setting.transcript instructions arguments world
    let happened' := setting.transcript transacted arguments world'
    ((∃ error, ended.1 = .error error ∧ ended'.1 = .error error)
        ∨ ∃ outcome outcome', ended.1 = .ok outcome ∧ ended'.1 = .ok outcome'
          ∧ outcome.SameBut value labels outcome')
      ∧ view ended.2 = view ended'.2
      ∧ happened.filterMap Event.entry? = happened'.filterMap Event.entry?
      ∧ ((Vantage.attentive view value).besides labels).events happened
        = ((Vantage.attentive view value).besides labels).events happened'
      ∧ ∀ path node call, (Instruction.whole instructions).at? path = some node →
        node.kind.isChosen chosen path = true → .ended path (.ok ()) call ∈ happened →
        let label := String.intercalate "-" node.names
        call.outcome.Timed label ∧ ∀ outcome, ended.1 = .ok outcome → outcome.Timed label := by
  intro labels transacted ended ended' happened happened'
  let see := Vantage.attentive view value
  have hobserves : setting.ObservesBy see.world see.value := hobservers
  have hwalks := agree_followAll_transacted hbackend hfaithful hobserves instructions [] 0 .root
    (fun _ => id) hhandlers
  let seen := fun outcome => (see.outcome outcome).besides labels
  have hview : ∀ call call', (see.besides labels).call call = (see.besides labels).call call' →
      seen call.outcome = seen call'.outcome := fun _ _ hcall => congrArg Call.outcome hcall
  obtain ⟨hends, hworlds, hevents⟩ :=
    (hobserves.inStep labels).perform_alike hview rfl rfl hwalks arguments hworld
  refine ⟨?_, hworlds, ?_, hevents, ?_⟩
  · have hends : ended.1.map seen = ended'.1.map seen := hends
    generalize ended.1 = returned at hends ⊢
    generalize ended'.1 = returned' at hends ⊢
    cases returned with
    | error error =>
      cases returned' with
      | error error' =>
        obtain rfl := Except.error.inj hends
        exact Or.inl ⟨error, rfl, rfl⟩
      | ok outcome' => exact nomatch hends
    | ok outcome =>
      cases returned' with
      | error error' => exact nomatch hends
      | ok outcome' => exact Or.inr ⟨outcome, outcome', rfl, rfl, .of_besides (Except.ok.inj hends)⟩
  · have hentries := congrArg (List.filterMap Event.entry?) hevents
    rwa [see.filterMap_entry?_besides, see.filterMap_entry?_besides] at hentries
  · intro path node call hat hchosen hevent label
    have hlabel : node.label ∈ labels := Instruction.label_mem_chosenLabels hat [] hchosen
    have hkeeps : Threads setting (.whole instructions) fun before _ after =>
        before.outcome.Timed node.label → after.outcome.Timed node.label :=
      threads_timed hhandlers hlabel
    have htimed := timed_of_ended hat (Kind.isChosen_iff.1 hchosen).1 hkeeps hevent
    rwa [node.label_eq] at htimed

end Setting

/-! ## A packing room -/

namespace Packing

/-- A backend that counts transactions. -/
def counting : TransactionBackend (Nat × List String) := fun _ _ world =>
  .run (world.1 + 1, world.2) fun answer after => .finish answer after

theorem faithful_counting : counting.Faithful Prod.snd where
  handsOn := TransactionBackend.meets_direct
  spares _ _ _ := ⟨rfl, fun _ _ => rfl⟩

/-- A setting in which transactions are counted, and time is measured in what is done. -/
def room : Setting (Nat × List String) where
  config := { transactionBackend := some counting }
  name := none
  typeName := "Packing"
  clock := fun before after => ⟨⟨(after.2.length - before.2.length).toUInt64⟩, none⟩

theorem observesBy_room : room.ObservesBy Prod.snd id where
  instrumentation := nofun
  reporter _ _ _ hworld := hworld
  clock before before' after after' hbefore hafter := by
    simp only [room, hbefore, hafter]

/-- Does something, and finds errors. -/
def finds (work : String) (errors : List (String × Json)) : Handler (Nat × List String) :=
  fun state => (.answered .nothing,
    ⟨state.call.mapOutcome (·.addErrors errors), (state.world.1, state.world.2 ++ [work])⟩)

theorem ignores_finds (labels : List String) (work : String) (errors : List (String × Json)) :
    (finds work errors).Ignores (.attentive Prod.snd id) labels where
  reads state state' hstate := by
    let see : Vantage (Nat × List String) (List String) := .attentive Prod.snd id
    obtain ⟨hcall, hworld⟩ := Sight.state_eq_iff.1 hstate
    have hadd : Call.Overlooks labels (·.mapOutcome (·.addErrors errors)) :=
      .of_informed fun call information => congrArg (fun outcome => { call with outcome })
        (Outcome.addErrors_informed information call.outcome errors)
    have hseen : ∀ call, see.call (call.mapOutcome (·.addErrors errors))
        = (see.call call).mapOutcome (·.addErrors errors) :=
      fun call => see.call_mapOutcome call (see.outcome_addErrors _ _)
    refine ⟨rfl, Sight.state_eq_iff.2 ⟨?_, congrArg (· ++ [work]) hworld⟩⟩
    show (see.call _).besides labels = (see.call _).besides labels
    rw [finds, finds, hseen, hseen]
    exact hadd _ _ hcall
  writes state label _ := congrArg (Entries.at? label)
    (Outcome.view_addErrors Outcome.information (fun _ _ => rfl) state.call.outcome errors)
  answers _ _ hanswer := nomatch hanswer

/-- A timed group of two steps, of which the second is timed on its own, before another timed
    step. -/
def instructions : List (Instruction (Handler (Nat × List String))) :=
  [.block .success
    [.block .benchmark
      [.leaf .step "weigh" (finds "weighed" [("weight", .string "too heavy")]),
        .leaf .benchmark "sort" (finds "sorted" [])],
      .leaf .benchmark "pack" (finds "packed" [])]]

/-- Timed or inside transactions, the second step is not reached after the first has failed, and the
    last is. If they are timed, the two nodes that are carried out leave durations. -/
theorem packing_only_notes_time :
    let chosen : Path → Bool := fun _ => true
    let labels := Instruction.chosenLabelsAll chosen instructions [] 0
    let transacted := Instruction.transactedAll chosen instructions [] 0
    labels = ["weigh-sort", "sort", "pack"]
      ∧ counting.Faithful Prod.snd ∧ room.ObservesBy Prod.snd id
      ∧ (∀ leaf ∈ Instruction.leavesAll instructions,
        leaf.2.2.Ignores (.attentive Prod.snd id) labels)
      ∧ ((room.transcript instructions {} (0, [])).filterMap Event.entry?).map Prod.fst
        = [[0, 0, 0], [0, 1]]
      ∧ ((room.transcript transacted {} (0, [])).filterMap Event.entry?).map Prod.fst
        = [[0, 0, 0], [0, 1]]
      ∧ ∃ timed plain, (room.perform instructions {} (0, [])).1 = .ok timed
        ∧ (room.perform transacted {} (0, [])).1 = .ok plain ∧ timed.SameBut id labels plain
        ∧ timed.Timed "weigh-sort" ∧ timed.Timed "pack" ∧ plain.information = [] := by
  intro chosen labels transacted
  have hhandlers : ∀ leaf ∈ Instruction.leavesAll instructions,
      leaf.2.2.Ignores (.attentive Prod.snd id) labels := by
    intro leaf hleaf
    simp only [instructions, Instruction.leavesAll, Instruction.leaves, List.cons_append,
      List.nil_append, List.append_nil, List.mem_cons, List.not_mem_nil, or_false] at hleaf
    rcases hleaf with rfl | rfl | rfl <;> exact ignores_finds labels _ _
  obtain ⟨hends, -, hentries, -, -⟩ := Setting.benchmarks_only_note_time room Prod.snd id rfl
    faithful_counting observesBy_room chosen hhandlers {}
    (rfl : Prod.snd (0, []) = Prod.snd (0, []))
  have hentered : ((room.transcript instructions {} (0, [])).filterMap
      Event.entry?).map Prod.fst = [[0, 0, 0], [0, 1]] := by rfl
  have hplain := (congrArg (List.map Prod.fst) hentries).symm.trans hentered
  refine ⟨rfl, faithful_counting, observesBy_room, hhandlers, hentered, hplain, ?_⟩
  rcases hends with ⟨error, herror, -⟩ | ⟨timed, plain, htimed, hplain, hsame⟩
  · exact nomatch herror
  · refine ⟨timed, plain, htimed, hplain, hsame, ?_⟩
    obtain rfl := Except.ok.inj htimed
    obtain rfl := Except.ok.inj hplain
    exact ⟨⟨⟨⟨1⟩, none⟩, rfl⟩, ⟨⟨⟨1⟩, none⟩, rfl⟩, rfl⟩

end Packing

end OperationPipeline

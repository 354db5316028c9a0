import OperationPipeline.Proofs.Course
import OperationPipeline.Proofs.Growth

set_option autoImplicit false

/-! # Laws of all courses

What holds of everything that is carried out, whatever it is: the errors that it raises are about
how the operation was declared or configured (`Course.isAuthoring`), what happens belongs to the
instructions that are carried out (`Course.covers`), and failures stay if the handlers leave them
alone (`Course.grows`, `Course.grows_ended`). -/

namespace OperationPipeline

variable {ω : Type} {setting : Setting ω}

/-! ## Errors -/

theorem Fault.isAuthoring_of_authoring? {fault : Fault} {error : EngineError}
    (h : fault.authoring? = some error) : error.isAuthoring = true := by
  unfold authoring? at h
  cases herror : fault.error? with
  | none =>
    rw [herror] at h
    exact nomatch h
  | some found =>
    rw [herror] at h
    by_cases hauthoring : found.isAuthoring = true
    · obtain rfl : found = error := Option.some.inj ((if_pos hauthoring).symm.trans h)
      exact hauthoring
    · exact nomatch (if_neg hauthoring).symm.trans h

theorem Setting.Accepts.isAuthoring {step : String} {before after : Call} {kind : Kind}
    {answer : Answer} {error : EngineError}
    (h : setting.Accepts step before kind answer (.error error) after) :
    error.isAuthoring = true := by
  cases h with
  | rejected hrejected => exact Kind.isAuthoring_of_rejection? hrejected

theorem Settled.isAuthoring {step : String} {fault : Fault} {before after : Call}
    {events : List Event} {error : EngineError}
    (h : Settled setting step fault before events (.error error) after) :
    error.isAuthoring = true := by
  cases h with
  | raised hauthoring => exact Fault.isAuthoring_of_authoring? hauthoring

theorem Stepped.isAuthoring {path : Path} {kind : Kind} {step : String} {handler : Handler ω}
    {before after : Call} {events : List Event} {error : EngineError}
    (h : Stepped setting path kind step handler before events (.error error) after) :
    error.isAuthoring = true := by
  cases h with
  | answered _ _ _ _ haccepts => exact haccepts.isAuthoring
  | faulted _ _ _ _ hsettled => exact hsettled.isAuthoring

/-- Whatever is raised describes a wrongly declared or configured operation. -/
theorem Course.isAuthoring {task : Task (Handler ω)} {before after : Call} {events : List Event}
    {result : Except EngineError Unit} (h : Course setting task before events result after)
    {error : EngineError} (herror : result = .error error) : error.isAuthoring = true := by
  induction h with
  | unbacked hkind hbackend =>
    obtain rfl := Except.error.inj herror
    rfl
  | backed hkind hbackend hmeets h hclosed ih =>
    subst herror
    cases hclosed with
    | faulted hsignal hsettled => exact hsettled.isAuthoring
  | leaf h =>
    subst herror
    exact h.isAuthoring
  | node h ih => exact ih herror
  | plain htransaction hbenchmark h ih => exact ih herror
  | untimed hkind h ih => exact ih herror
  | block h ih => exact ih herror
  | raised h ih => exact ih herror
  | next h hstops hlater ih ihlater => exact ihlater herror
  | _ => exact nomatch herror

/-! ## Whereabouts -/

/-- The path of the instruction that an event is about, if it is about one. -/
def Event.path? : Event → Option Path
  | .began path _ | .ended path _ _ | .entered path _ | .returned path _ _ => some path
  | .transactionOpened _ _ | .blockAnswered _ | .traceOpened _ _ _ | .traceRan | .recorded _ => none

theorem Event.IsTrace.path? {event : Event} (h : event.IsTrace) : event.path? = none := by
  cases event with
  | traceOpened _ _ _ => rfl
  | traceRan => rfl
  | _ => exact h.elim

/-- Whether an instruction that is carried out for a task may stand at the path. -/
def Task.Covers {η : Type} : Task η → Path → Prop
  | .node path _ _, other | .wrapped path _ _, other | .inner path _ _, other
  | .rounds path _ _ _, other => path <+: other
  | .members path index _ _, other => ∃ place, index ≤ place ∧ path ++ [place] <+: other

theorem Settled.eq_recorded {step : String} {fault : Fault} {before after : Call}
    {events : List Event} {result : Except EngineError Unit}
    (h : Settled setting step fault before events result after) {event : Event}
    (hevent : event ∈ events) : ∃ recorded, event = .recorded recorded := by
  cases h with
  | raised hauthoring => exact nomatch hevent
  | recorded hauthoring => exact ⟨_, List.mem_singleton.1 hevent⟩

theorem Closed.eq_recorded {before after : Call} {last : Except Abort Unit} {events : List Event}
    {result : Except EngineError Unit} (h : Closed setting before last events result after)
    {event : Event} (hevent : event ∈ events) : ∃ recorded, event = .recorded recorded := by
  cases h with
  | committed => exact nomatch hevent
  | rolledBack hsignal => exact nomatch hevent
  | faulted hsignal hsettled => exact hsettled.eq_recorded hevent

/-- What happens in a step: the handler is entered and returns, the instrumentation is around it and
    a fault may be recorded at the end. -/
theorem Stepped.cases_mem {path : Path} {kind : Kind} {step : String} {handler : Handler ω}
    {before after : Call} {events : List Event} {result : Except EngineError Unit}
    (h : Stepped setting path kind step handler before events result after) {event : Event}
    (hevent : event ∈ events) :
    event.IsTrace ∨ event = .entered path (setting.tracedCall step before)
      ∨ (∃ ending call, event = .returned path ending call)
      ∨ ∃ recorded, event = .recorded recorded := by
  cases h with
  | skipped hbackend hmeets hevents => exact Or.inl (hevents event hevent)
  | answered hopening hclosing hhandler hanswer haccepts =>
    simp only [List.mem_append, List.mem_cons] at hevent
    rcases hevent with hevent | rfl | rfl | hevent
    · exact Or.inl (hopening event hevent)
    · exact Or.inr (Or.inl rfl)
    · exact Or.inr (Or.inr (Or.inl ⟨_, _, rfl⟩))
    · exact Or.inl (hclosing event hevent)
  | faulted hopening hclosing hhandler hfault hsettled =>
    simp only [List.mem_append, List.mem_cons] at hevent
    rcases hevent with hevent | rfl | rfl | hevent | hevent
    · exact Or.inl (hopening event hevent)
    · exact Or.inr (Or.inl rfl)
    · exact Or.inr (Or.inr (Or.inl ⟨_, _, rfl⟩))
    · exact Or.inl (hclosing event hevent)
    · exact Or.inr (Or.inr (Or.inr (hsettled.eq_recorded hevent)))

/-- Whether an event is the begin or the end of the work on an instruction. -/
def Event.IsMark : Event → Prop
  | .began _ _ | .ended _ _ _ => True
  | .entered _ _ | .returned _ _ _ | .transactionOpened _ _ | .blockAnswered _
  | .traceOpened _ _ _ | .traceRan | .recorded _ => False

/-- The work on the instruction of a step is marked around the step, not in it. -/
theorem Stepped.not_mark {path : Path} {kind : Kind} {step : String} {handler : Handler ω}
    {before after : Call} {events : List Event} {result : Except EngineError Unit}
    (h : Stepped setting path kind step handler before events result after) {event : Event}
    (hevent : event ∈ events) : ¬ event.IsMark := by
  intro hmark
  rcases h.cases_mem hevent with htrace | rfl | ⟨ending, call, rfl⟩ | ⟨recorded, rfl⟩
  · cases event with
    | began path call => exact htrace
    | ended path result call => exact htrace
    | _ => exact hmark
  · exact hmark
  · exact hmark
  · exact hmark

/-- What happens belongs to the task. -/
theorem Course.covers {task : Task (Handler ω)} {before after : Call} {events : List Event}
    {result : Except EngineError Unit} (h : Course setting task before events result after)
    {event : Event} (hevent : event ∈ events) {path : Path} (hpath : event.path? = some path) :
    task.Covers path := by
  induction h with
  | node h ih =>
    simp only [List.mem_cons, List.mem_append, List.not_mem_nil, or_false] at hevent
    rcases hevent with rfl | hevent | rfl
    · obtain rfl := Option.some.inj hpath
      exact List.prefix_rfl
    · exact ih hevent
    · obtain rfl := Option.some.inj hpath
      exact List.prefix_rfl
  | plain htransaction hbenchmark h ih => exact ih hevent
  | untimed hkind h ih => exact ih hevent
  | timed hkind h ih => exact ih hevent
  | unbacked hkind hbackend => exact nomatch hevent
  | backed hkind hbackend hmeets h hclosed ih =>
    simp only [List.mem_cons, List.mem_append] at hevent
    rcases hevent with rfl | hevent | hevent
    · exact nomatch hpath
    · exact ih hevent
    · obtain ⟨recorded, rfl⟩ := hclosed.eq_recorded hevent
      exact nomatch hpath
  | noRound => exact nomatch hevent
  | round h hlater ih ihlater =>
    simp only [List.mem_append, List.mem_cons] at hevent
    rcases hevent with hevent | rfl | hevent
    · exact ih hevent
    · exact nomatch hpath
    · exact ihlater hevent
  | leaf h =>
    rcases h.cases_mem hevent with htrace | rfl | ⟨ending, call, rfl⟩ | ⟨recorded, rfl⟩
    · rw [htrace.path?] at hpath
      exact nomatch hpath
    · obtain rfl := Option.some.inj hpath
      exact List.prefix_rfl
    · obtain rfl := Option.some.inj hpath
      exact List.prefix_rfl
    · exact nomatch hpath
  | block h ih =>
    obtain ⟨place, -, hplace⟩ := ih hevent
    exact (List.prefix_append _ _).trans hplace
  | nil => exact nomatch hevent
  | raised h ih => exact ⟨_, Nat.le_refl _, ih hevent⟩
  | stopped h hstops ih => exact ⟨_, Nat.le_refl _, ih hevent⟩
  | next h hstops hlater ih ihlater =>
    rcases List.mem_append.1 hevent with hevent | hevent
    · exact ⟨_, Nat.le_refl _, ih hevent⟩
    · obtain ⟨place, hindex, hplace⟩ := ihlater hevent
      exact ⟨place, Nat.le_of_succ_le hindex, hplace⟩

/-! ## Failures -/

/-- The steps that can be run for a task. -/
def Task.leaves {η : Type} : Task η → List (Kind × String × η)
  | .node _ instruction _ | .wrapped _ instruction _ | .inner _ instruction _
  | .rounds _ instruction _ _ => instruction.leaves
  | .members _ _ body _ => Instruction.leavesAll body

/-- Whether all handlers of a task change the outcome only by edits. -/
def Task.Edits (task : Task (Handler ω)) : Prop :=
  ∀ leaf ∈ task.leaves, leaf.2.2.Edits

theorem Task.Edits.head {path : Path} {index : Nat} {instruction : Instruction (Handler ω)}
    {rest : List (Instruction (Handler ω))} {scope : Scope}
    (h : (Task.members path index (instruction :: rest) scope).Edits) :
    (Task.node (path ++ [index]) instruction scope.leaf).Edits :=
  fun leaf hleaf => h leaf (List.mem_append_left _ hleaf)

theorem Task.Edits.tail {path : Path} {index : Nat} {instruction : Instruction (Handler ω)}
    {rest : List (Instruction (Handler ω))} {scope : Scope}
    (h : (Task.members path index (instruction :: rest) scope).Edits) :
    (Task.members path (index + 1) rest scope).Edits :=
  fun leaf hleaf => h leaf (List.mem_append_right _ hleaf)

theorem Setting.grows_tracedCall (step : String) (call : Call) :
    call.outcome.Grows (setting.tracedCall step call).outcome := by
  rw [tracedCall]
  split
  · exact Outcome.Grows.of_eq rfl rfl
  · exact Outcome.Grows.refl _

theorem Handler.Edits.leads {handler : Handler ω} (h : handler.Edits) {before after : Call}
    {ending : HandlerEnd} (hleads : handler.Leads before ending after) :
    before.outcome.Grows after.outcome := by
  obtain ⟨world, world', hrun⟩ := hleads
  have hgrows := h.grows ⟨before, world⟩
  rw [hrun] at hgrows
  exact hgrows

theorem Settled.grows {step : String} {fault : Fault} {before after : Call} {events : List Event}
    {result : Except EngineError Unit}
    (h : Settled setting step fault before events result after) :
    before.outcome.Grows after.outcome := by
  cases h with
  | raised hauthoring => exact Outcome.Grows.refl _
  | recorded hauthoring => exact Outcome.grows_addException _ _ _ _

theorem Closed.grows {before after : Call} {last : Except Abort Unit} {events : List Event}
    {result : Except EngineError Unit} (h : Closed setting before last events result after) :
    before.outcome.Grows after.outcome := by
  cases h with
  | committed => exact Outcome.Grows.refl _
  | rolledBack hsignal => exact Outcome.Grows.refl _
  | faulted hsignal hsettled => exact hsettled.grows

theorem Stepped.grows {path : Path} {kind : Kind} {step : String} {handler : Handler ω}
    {before after : Call} {events : List Event} {result : Except EngineError Unit}
    (h : Stepped setting path kind step handler before events result after)
    (hedits : handler.Edits) : before.outcome.Grows after.outcome := by
  cases h with
  | skipped hbackend hmeets hevents => exact Outcome.Grows.refl _
  | answered _ _ hhandler _ haccepts =>
    exact ((Setting.grows_tracedCall step before).trans (hedits.leads hhandler)).trans
      haccepts.grows
  | faulted _ _ hhandler _ hsettled =>
    exact ((Setting.grows_tracedCall step before).trans (hedits.leads hhandler)).trans
      hsettled.grows

/-- Nothing that is carried out takes a failure back. -/
theorem Course.grows {task : Task (Handler ω)} {before after : Call} {events : List Event}
    {result : Except EngineError Unit} (h : Course setting task before events result after)
    (hedits : task.Edits) : before.outcome.Grows after.outcome := by
  induction h with
  | node h ih => exact ih hedits
  | plain htransaction hbenchmark h ih => exact ih hedits
  | untimed hkind h ih => exact ih hedits
  | timed hkind h ih => exact (ih hedits).trans (Outcome.Grows.of_eq rfl rfl)
  | unbacked hkind hbackend => exact Outcome.Grows.refl _
  | backed hkind hbackend hmeets h hclosed ih => exact (ih hedits).trans hclosed.grows
  | noRound => exact Outcome.Grows.refl _
  | round h hlater ih ihlater => exact (ih hedits).trans (ihlater hedits)
  | leaf h => exact h.grows (hedits _ List.mem_cons_self)
  | block h ih => exact ih hedits
  | nil => exact Outcome.Grows.refl _
  | raised h ih => exact ih hedits.head
  | stopped h hstops ih => exact ih hedits.head
  | next h hstops hlater ih ihlater => exact (ih hedits.head).trans (ihlater hedits.tail)

/-- The outcome after each instruction lies between those at the beginning and at the end. -/
theorem Course.grows_ended {task : Task (Handler ω)} {before after : Call} {events : List Event}
    {result : Except EngineError Unit} (h : Course setting task before events result after)
    (hedits : task.Edits) {path : Path} {ending : Except EngineError Unit} {call : Call}
    (hevent : .ended path ending call ∈ events) :
    before.outcome.Grows call.outcome ∧ call.outcome.Grows after.outcome := by
  induction h with
  | node h ih =>
    simp only [List.mem_cons, List.mem_append, List.not_mem_nil, or_false, reduceCtorEq,
      false_or] at hevent
    rcases hevent with hevent | hevent
    · exact ih hedits hevent
    · obtain ⟨-, -, rfl⟩ := Event.ended.inj hevent
      exact ⟨h.grows hedits, Outcome.Grows.refl _⟩
  | plain htransaction hbenchmark h ih => exact ih hedits hevent
  | untimed hkind h ih => exact ih hedits hevent
  | timed hkind h ih =>
    obtain ⟨hbefore, hafter⟩ := ih hedits hevent
    exact ⟨hbefore, hafter.trans (Outcome.Grows.of_eq rfl rfl)⟩
  | unbacked hkind hbackend => exact nomatch hevent
  | backed hkind hbackend hmeets h hclosed ih =>
    simp only [List.mem_cons, List.mem_append, reduceCtorEq, false_or] at hevent
    rcases hevent with hevent | hevent
    · obtain ⟨hbefore, hafter⟩ := ih hedits hevent
      exact ⟨hbefore, hafter.trans hclosed.grows⟩
    · obtain ⟨recorded, hrecorded⟩ := hclosed.eq_recorded hevent
      exact nomatch hrecorded
  | noRound => exact nomatch hevent
  | round h hlater ih ihlater =>
    simp only [List.mem_append, List.mem_cons, reduceCtorEq, false_or] at hevent
    rcases hevent with hevent | hevent
    · obtain ⟨hbefore, hafter⟩ := ih hedits hevent
      exact ⟨hbefore, hafter.trans (hlater.grows hedits)⟩
    · obtain ⟨hbefore, hafter⟩ := ihlater hedits hevent
      exact ⟨(h.grows hedits).trans hbefore, hafter⟩
  | leaf h => exact (h.not_mark hevent trivial).elim
  | block h ih => exact ih hedits hevent
  | nil => exact nomatch hevent
  | raised h ih => exact ih hedits.head hevent
  | stopped h hstops ih => exact ih hedits.head hevent
  | next h hstops hlater ih ihlater =>
    rcases List.mem_append.1 hevent with hevent | hevent
    · obtain ⟨hbefore, hafter⟩ := ih hedits.head hevent
      exact ⟨hbefore, hafter.trans (hlater.grows hedits.tail)⟩
    · obtain ⟨hbefore, hafter⟩ := ihlater hedits.tail hevent
      exact ⟨(h.grows hedits.head).trans hbefore, hafter⟩

/-! ## Transactions -/

/-- Whether the transaction backend, if there is one, always meets a contract. -/
def Setting.Transacts (setting : Setting ω) (contract : TransactionContract) : Prop :=
  ∀ backend, setting.config.transactionBackend = some backend → backend.Meets contract

theorem Setting.Transacts.imp {contract weaker : TransactionContract}
    (h : setting.Transacts contract)
    (himp : ∀ answers last, contract answers last → weaker answers last) :
    setting.Transacts weaker :=
  fun backend hbackend method options world => (h backend hbackend method options world).imp himp

/-- A setting in the smallest world, with nothing but the direct transaction backend. -/
def Setting.direct : Setting Unit where
  config := { transactionBackend := some .direct }
  name := none
  typeName := "Operation"
  clock := fun _ _ => ⟨default, none⟩

theorem Setting.transacts_direct : direct.Transacts .handsOn := by
  intro backend hbackend
  obtain rfl := Option.some.inj hbackend
  exact TransactionBackend.meets_direct

/-- Whether no block of a transaction is run twice in a row. -/
def Task.Single {η : Type} : Task η → Prop
  | .rounds _ _ _ answers => answers.length ≤ 1
  | .node _ _ _ | .wrapped _ _ _ | .inner _ _ _ | .members _ _ _ _ => True

theorem Task.Single.eq_nil {η : Type} {path : Path} {instruction : Instruction η}
    {inherited : Kind} {answer : Except Abort Unit} {answers : List (Except Abort Unit)}
    (h : (Task.rounds path instruction inherited (answer :: answers)).Single) : answers = [] :=
  List.eq_nil_of_length_eq_zero (Nat.le_zero.1 (Nat.le_of_succ_le_succ h))

theorem Course.of_no_round {path : Path} {instruction : Instruction (Handler ω)}
    {inherited : Kind} {before after : Call} {events : List Event}
    {result : Except EngineError Unit}
    (h : Course setting (.rounds path instruction inherited []) before events result after) :
    events = [] ∧ after = before := by
  cases h with
  | noRound => exact ⟨rfl, rfl⟩

/-- The block of a transaction goes through if nothing is raised and the outcome is no failure. -/
theorem Setting.blockAnswer_eq_ok_iff (walked : Except EngineError Unit) (outcome : Outcome) :
    blockAnswer walked outcome = .ok () ↔ walked = .ok () ∧ outcome.isFailure = false := by
  cases walked with
  | error error => simp [blockAnswer]
  | ok u => cases hfailed : outcome.isFailure <;> simp [blockAnswer, hfailed]

/-- The signal to roll back says that the outcome is a failure. -/
theorem Setting.isFailure_of_blockAnswer {walked : Except EngineError Unit} {outcome : Outcome}
    {abort : Abort} (h : blockAnswer walked outcome = .error abort)
    (hsignal : abort.fault? = none) :
    outcome.isFailure = true := by
  cases walked with
  | error error =>
    obtain rfl := Except.error.inj h
    exact nomatch hsignal
  | ok u =>
    cases hfailed : outcome.isFailure with
    | true => rfl
    | false => simp [blockAnswer, hfailed] at h

/-! ## Stopping -/

theorem StopRule.finished_of_not_stops {rule : StopRule} {finished failed : Bool}
    (h : rule.stops finished failed = false) : finished = false := by
  cases finished with
  | false => rfl
  | true =>
    rw [stops_finished] at h
    exact nomatch h

theorem StopRule.eq_finishedOnly_of_not_stops {rule : StopRule} {finished : Bool}
    (h : rule.stops finished true = false) : rule = .finishedOnly := by
  cases rule with
  | finishedOnly => rfl
  | finishedOrFailed => simp [stops] at h

/-- The blocks that go on after a failure. -/
theorem Scope.stopRule_eq_finishedOnly_iff (kind : Kind) :
    stopRule kind = .finishedOnly ↔ kind = .success ∨ kind = .validate := by
  cases kind <;> simp [stopRule]

/-! ## Position -/

/-- Whether what a task is about is found in the tree of instructions. -/
def Task.At {η : Type} (root : Instruction η) : Task η → Prop
  | .node path instruction _ | .wrapped path instruction _ | .inner path instruction _
  | .rounds path instruction _ _ => root.at? path = some instruction
  | .members path index body scope =>
    ∃ kind members, root.at? path = some (.block kind members) ∧ members.drop index = body
      ∧ scope.rule = Scope.stopRule kind

namespace Task.At

variable {η : Type} {root : Instruction η}

theorem body {path : Path} {kind inherited : Kind} {body : List (Instruction η)}
    (h : (Task.inner path (.block kind body) inherited).At root) :
    (Task.members path 0 body (Scope.inside kind inherited)).At root :=
  ⟨kind, body, h, List.drop_zero, rfl⟩

theorem head {path : Path} {index : Nat} {instruction : Instruction η}
    {rest : List (Instruction η)} {scope : Scope}
    (h : (Task.members path index (instruction :: rest) scope).At root) :
    (Task.node (path ++ [index]) instruction scope.leaf).At root := by
  obtain ⟨kind, members, hblock, hdrop, -⟩ := h
  refine (Instruction.at?_concat hblock index).trans ?_
  rw [← List.head?_drop, hdrop]
  rfl

theorem tail {path : Path} {index : Nat} {instruction : Instruction η}
    {rest : List (Instruction η)} {scope : Scope}
    (h : (Task.members path index (instruction :: rest) scope).At root) :
    (Task.members path (index + 1) rest scope).At root := by
  obtain ⟨kind, members, hblock, hdrop, hrule⟩ := h
  refine ⟨kind, members, hblock, ?_, hrule⟩
  rw [← List.tail_drop, hdrop]
  rfl

end Task.At

/-! ## Blocks without a wrapper -/

theorem Course.members_of_wrapped {path : Path} {kind inherited : Kind}
    {body : List (Instruction (Handler ω))} (htransaction : kind ≠ .transaction)
    (hbenchmark : kind ≠ .benchmark) {before after : Call} {events : List Event}
    {result : Except EngineError Unit}
    (h : Course setting (.wrapped path (.block kind body) inherited) before events result after) :
    Course setting (.members path 0 body (Scope.inside kind inherited)) before events result
      after := by
  cases h with
  | plain _ _ h =>
    cases h with
    | block h => exact h
  | untimed hkind _ => exact absurd hkind hbenchmark
  | timed hkind _ => exact absurd hkind hbenchmark
  | unbacked hkind _ => exact absurd hkind htransaction
  | backed hkind _ _ _ _ => exact absurd hkind htransaction

/-! ## Whole calls -/

theorem CallCourse.of_not_trace {instructions : List (Instruction (Handler ω))} {start after : Call}
    {events : List Event} {result : Option (Except EngineError Unit)}
    (h : CallCourse setting instructions start events result after) {event : Event}
    (hevent : event ∈ events) (htrace : ¬ event.IsTrace) :
    ∃ walked ended last, walked ⊆ events ∧ event ∈ walked
      ∧ Course setting (.members [] 0 instructions .root) start walked ended last := by
  cases h with
  | skipped hbackend hmeets hevents => exact absurd (hevents event hevent) htrace
  | walked hopening hclosing h =>
    refine ⟨_, _, _, ?_, ?_, h⟩
    · exact List.subset_append_of_subset_left _ (List.subset_append_right _ _)
    · rcases List.mem_append.1 hevent with hevent | hevent
      · rcases List.mem_append.1 hevent with hevent | hevent
        · exact absurd (hopening event hevent) htrace
        · exact hevent
      · exact absurd (hclosing event hevent) htrace

/-- A call that returns an outcome has gone through a walk without an error. -/
theorem Setting.of_perform_eq_ok {instructions : List (Instruction (Handler ω))}
    {arguments : Arguments} {world : ω} {outcome : Outcome}
    (h : (setting.perform instructions arguments world).1 = .ok outcome) :
    setting.transcript instructions arguments world
        = (setting.followCall instructions arguments world).2.world.log
      ∧ (∀ error, (setting.followCall instructions arguments world).1 ≠ some (.error error))
      ∧ (setting.followCall instructions arguments world).2.call.outcome = outcome := by
  cases hvalid : setting.config.validate with
  | error error =>
    rw [perform, hvalid] at h
    cases h
  | ok u =>
    rw [setting.plain_followCall instructions arguments world hvalid] at h
    refine ⟨by rw [transcript, hvalid], ?_⟩
    generalize setting.followCall instructions arguments world = ended at h ⊢
    obtain ⟨result, after⟩ := ended
    cases result with
    | none => exact ⟨fun error herror => (by cases herror), Except.ok.inj h⟩
    | some result =>
      cases result with
      | error error => cases h
      | ok u => exact ⟨fun error herror => (by cases herror), Except.ok.inj h⟩

end OperationPipeline

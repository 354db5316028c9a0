import OperationPipeline.Proofs.Blocks
import OperationPipeline.Proofs.Transparency

set_option autoImplicit false

/-! # Where errors arise

An authoring error arises in a walk when a handler faults with it, when a handler answers in a shape
that is not the one of its step, when a transaction begins without a backend, or when a transaction
backend ends with it (`Event.Raises`). If backends hand errors on, whatever is being carried out
then ends with the error (`Course.raised_of_raises`), and nothing happens on the way but that blocks
answer with it (`Course.pairwise_unwinds`). Errors do not arise in any other way
(`Course.exists_raises`). -/

namespace OperationPipeline

/-! ## Positions with the kind of their plain steps -/

namespace Instruction

variable {η : Type}

/-- The kind that a plain step at the path takes, where plain steps around the whole instruction are
    of the kind `inherited`. -/
def inheritedAt : Instruction η → Kind → Path → Kind
  | _, inherited, [] => inherited
  | .leaf _ _ _, inherited, _ :: _ => inherited
  | .block kind body, inherited, index :: path =>
    match body[index]? with
    | none => Scope.leafKind kind inherited
    | some member => member.inheritedAt (Scope.leafKind kind inherited) path
termination_by structural _ _ path => path

/-- A block hands its kind down to all its members. -/
theorem inheritedAt_concat {root : Instruction η} {path : Path} {kind : Kind}
    {body : List (Instruction η)} (h : root.at? path = some (.block kind body)) (inherited : Kind)
    (index : Nat) :
    root.inheritedAt inherited (path ++ [index])
      = Scope.leafKind kind (root.inheritedAt inherited path) := by
  induction path generalizing root inherited with
  | nil =>
    obtain rfl : root = .block kind body := Option.some.inj h
    rw [List.nil_append, inheritedAt, inheritedAt]
    cases body[index]? <;> rfl
  | cons first rest ih =>
    cases root with
    | leaf own name handler => cases h
    | block own members =>
      rw [List.cons_append, inheritedAt, inheritedAt]
      rw [at?] at h
      cases hmember : members[first]? with
      | none =>
        rw [hmember] at h
        cases h
      | some member =>
        rw [hmember] at h
        exact ih h (Scope.leafKind own inherited)

end Instruction

/-- Whether what a task is about is found in the tree of instructions, with the kind of plain steps
    that is handed down to it there. -/
def Task.Placed {η : Type} (root : Instruction η) : Task η → Prop
  | .node path instruction inherited | .wrapped path instruction inherited
  | .inner path instruction inherited | .rounds path instruction inherited _ =>
    root.at? path = some instruction ∧ root.inheritedAt .step path = inherited
  | .members path index body scope =>
    ∃ kind members, root.at? path = some (.block kind members) ∧ members.drop index = body
      ∧ scope = Scope.inside kind (root.inheritedAt .step path)

namespace Task.Placed

variable {η : Type} {root : Instruction η}

theorem body {path : Path} {kind inherited : Kind} {body : List (Instruction η)}
    (h : (Task.inner path (.block kind body) inherited).Placed root) :
    (Task.members path 0 body (Scope.inside kind inherited)).Placed root := by
  obtain ⟨hat, rfl⟩ := h
  exact ⟨kind, body, hat, List.drop_zero, rfl⟩

theorem head {path : Path} {index : Nat} {instruction : Instruction η}
    {rest : List (Instruction η)} {scope : Scope}
    (h : (Task.members path index (instruction :: rest) scope).Placed root) :
    (Task.node (path ++ [index]) instruction scope.leaf).Placed root := by
  obtain ⟨kind, members, hblock, hdrop, rfl⟩ := h
  refine ⟨(Instruction.at?_concat hblock index).trans ?_,
    Instruction.inheritedAt_concat hblock .step index⟩
  rw [← List.head?_drop, hdrop]
  rfl

theorem tail {path : Path} {index : Nat} {instruction : Instruction η}
    {rest : List (Instruction η)} {scope : Scope}
    (h : (Task.members path index (instruction :: rest) scope).Placed root) :
    (Task.members path (index + 1) rest scope).Placed root := by
  obtain ⟨kind, members, hblock, hdrop, hscope⟩ := h
  refine ⟨kind, members, hblock, ?_, hscope⟩
  rw [← List.tail_drop, hdrop]
  rfl

end Task.Placed

variable {ω : Type} {setting : Setting ω} {root : Instruction (Handler ω)}

/-! ## Events that raise an error -/

/-- Whether an authoring error arises at an event, while the tree `root` is carried out. -/
inductive Event.Raises (setting : Setting ω) (root : Instruction (Handler ω)) :
    Event → EngineError → Prop where
  /-- A handler faults with the error, in whatever contexts. -/
  | handler {path : Path} {fault : Fault} {call : Call} {error : EngineError}
      (h : fault.authoring? = some error) :
    Raises setting root (.returned path (.faulted fault) call) error
  /-- A handler answers in a wrong shape. -/
  | shape {path : Path} {kind : Kind} {step : String} {handler : Handler ω} {answer : Answer}
      {call : Call} {error : EngineError} (hat : root.at? path = some (.leaf kind step handler))
      (h : (Scope.leafKind kind (root.inheritedAt .step path)).rejection? step answer
        = some error) :
    Raises setting root (.returned path (.answered answer) call) error
  /-- A transaction begins, and there is no backend to run it. -/
  | unbacked {path : Path} {instruction : Instruction (Handler ω)} {call : Call}
      (hat : root.at? path = some instruction) (hkind : instruction.kind = .transaction)
      (hbackend : setting.config.transactionBackend = none) :
    Raises setting root (.began path call) (.transactionBackendMissing setting.displayName)
  /-- A transaction ends, and its backend has returned the error. -/
  | backend {path : Path} {instruction : Instruction (Handler ω)} {call : Call}
      {backend : TransactionBackend ω} {error : EngineError}
      (hat : root.at? path = some instruction) (hkind : instruction.kind = .transaction)
      (hbackend : setting.config.transactionBackend = some backend)
      (hauthoring : error.isAuthoring = true) :
    Raises setting root (.ended path (.error error) call) error

/-- Whether nothing happens at an event but that an error is on its way out: work ends with the
    error, and the blocks of transactions answer with it. -/
def Event.Unwinds (error : EngineError) : Event → Prop
  | .ended _ result _ => result = .error error
  | .blockAnswered answer => answer = .error (Abort.ofFault (Fault.ofError error))
  | .traceOpened _ _ _ | .traceRan => True
  | .began _ _ | .entered _ _ | .returned _ _ _ | .transactionOpened _ _ | .recorded _ => False

/-- Whether the second event may come after the first one: an error that has arisen is on its way
    out. -/
def Event.UnwindsAfter (setting : Setting ω) (root : Instruction (Handler ω))
    (first second : Event) : Prop :=
  ∀ error, first.Raises setting root error → second.Unwinds error

theorem Event.IsTrace.not_raises {event : Event} (h : event.IsTrace) {error : EngineError} :
    ¬ event.Raises setting root error := by
  intro hraises
  cases hraises <;> exact h

theorem Event.IsTrace.unwinds {event : Event} (h : event.IsTrace) (error : EngineError) :
    event.Unwinds error := by
  cases event with
  | traceOpened _ _ _ => trivial
  | traceRan => trivial
  | _ => exact h.elim

theorem Event.Raises.isAuthoring {event : Event} {error : EngineError}
    (h : event.Raises setting root error) : error.isAuthoring = true := by
  cases h with
  | handler h => exact Fault.isAuthoring_of_authoring? h
  | shape hat h => exact Kind.isAuthoring_of_rejection? h
  | unbacked hat hkind hbackend => rfl
  | backend hat hkind hbackend hauthoring => exact hauthoring

/-! ## Steps -/

/-- An answer raises an error if and only if its shape is rejected. -/
theorem Setting.Accepts.eq_error_iff {step : String} {before after : Call} {kind : Kind}
    {answer : Answer} {result : Except EngineError Unit} {error : EngineError}
    (h : setting.Accepts step before kind answer result after) :
    result = .error error ↔ kind.rejection? step answer = some error := by
  cases h with
  | rejected hrejected => rw [hrejected, Except.error.injEq, Option.some.injEq]
  | ignored hvalidate hoperation hoperations hcondition =>
    have hnone : kind.rejection? step answer = none := by
      cases kind with
      | validate => exact (hvalidate rfl).elim
      | operation => exact (hoperation rfl).elim
      | operations => exact (hoperations rfl).elim
      | _ => rfl
    rw [hnone]
    exact ⟨nofun, nofun⟩
  | _ => exact ⟨nofun, nofun⟩

theorem Settled.eq_of_authoring? {step : String} {fault : Fault} {before after : Call}
    {events : List Event} {result : Except EngineError Unit} {error : EngineError}
    (h : Settled setting step fault before events result after)
    (hauthoring : fault.authoring? = some error) : result = .error error ∧ events = [] := by
  cases h with
  | raised hraised => exact ⟨by rw [Option.some.inj (hraised.symm.trans hauthoring)], rfl⟩
  | recorded hnone => exact nomatch hnone.symm.trans hauthoring

/-- The end of a handler at which an error arises is the end of its step. -/
theorem Stepped.raised_of_raises {path : Path} {kind inherited : Kind} {step : String}
    {handler : Handler ω} {before after : Call} {events : List Event}
    {result : Except EngineError Unit}
    (h : Stepped setting path (Scope.leafKind kind inherited) step handler before events result
      after) (hplaced : (Task.inner path (.leaf kind step handler) inherited).Placed root)
    {event : Event} (hevent : event ∈ events) {error : EngineError}
    (hraises : event.Raises setting root error) : result = .error error := by
  obtain ⟨hat, rfl⟩ := hplaced
  cases h with
  | skipped hbackend hmeets hevents => exact ((hevents event hevent).not_raises hraises).elim
  | answered hopening hclosing hhandler hanswer haccepts =>
    simp only [List.mem_append, List.mem_cons] at hevent
    rcases hevent with hevent | rfl | rfl | hevent
    · exact ((hopening event hevent).not_raises hraises).elim
    · exact nomatch hraises
    · cases hraises with
      | handler hauthoring => exact nomatch hanswer
      | shape hleaf hrejection =>
        obtain ⟨rfl, rfl, rfl⟩ := Instruction.leaf.inj (Option.some.inj (hat.symm.trans hleaf))
        obtain rfl := Except.ok.inj hanswer
        exact haccepts.eq_error_iff.2 hrejection
    · exact ((hclosing event hevent).not_raises hraises).elim
  | faulted hopening hclosing hhandler hfault hsettled =>
    simp only [List.mem_append, List.mem_cons] at hevent
    rcases hevent with hevent | rfl | rfl | hevent | hevent
    · exact ((hopening event hevent).not_raises hraises).elim
    · exact nomatch hraises
    · cases hraises with
      | handler hauthoring =>
        obtain rfl := Except.error.inj hfault
        exact (hsettled.eq_of_authoring? hauthoring).1
      | shape hleaf hrejection => exact nomatch hfault
    · exact ((hclosing event hevent).not_raises hraises).elim
    · obtain ⟨recorded, rfl⟩ := hsettled.eq_recorded hevent
      exact nomatch hraises

/-! ## Whatever is carried out -/

/-- Whether no block of a transaction is run again after an error. -/
def Task.Abiding {η : Type} : Task η → Prop
  | .rounds _ _ _ answers =>
    ∀ earlier abort later, answers = earlier ++ .error abort :: later → later = []
  | .node _ _ _ | .wrapped _ _ _ | .inner _ _ _ | .members _ _ _ _ => True

theorem Task.Abiding.of_passesErrorsOn {η : Type} {path : Path} {instruction : Instruction η}
    {inherited : Kind} {answers : List (Except Abort Unit)} {last : Except Abort Unit}
    (h : TransactionContract.passesErrorsOn answers last) :
    (Task.rounds path instruction inherited answers).Abiding :=
  fun earlier abort later hanswers => (h earlier abort later hanswers).1

theorem Task.Abiding.tail {η : Type} {path : Path} {instruction : Instruction η}
    {inherited : Kind} {answer : Except Abort Unit} {answers : List (Except Abort Unit)}
    (h : (Task.rounds path instruction inherited (answer :: answers)).Abiding) :
    (Task.rounds path instruction inherited answers).Abiding :=
  fun earlier abort later hanswers =>
    h (answer :: earlier) abort later (congrArg (List.cons answer) hanswers)

theorem Task.Abiding.eq_nil {η : Type} {path : Path} {instruction : Instruction η}
    {inherited : Kind} {abort : Abort} {answers : List (Except Abort Unit)}
    (h : (Task.rounds path instruction inherited (.error abort :: answers)).Abiding) :
    answers = [] :=
  h [] abort answers rfl

/-- How a task ends at which an error has arisen: with the error, as the last answer if it is about
    a block that is run several times. -/
def Task.EndsWith {η : Type} (result : Except EngineError Unit) (error : EngineError) :
    Task η → Prop
  | .rounds _ _ _ answers =>
    ∃ earlier, answers = earlier ++ [.error (Abort.ofFault (Fault.ofError error))]
  | .node _ _ _ | .wrapped _ _ _ | .inner _ _ _ | .members _ _ _ _ => result = .error error

/-- A transaction without a backend ends before anything happens in it. -/
theorem Course.of_unbacked {path : Path} {instruction : Instruction (Handler ω)}
    {inherited : Kind} {before after : Call} {events : List Event}
    {result : Except EngineError Unit}
    (h : Course setting (.wrapped path instruction inherited) before events result after)
    (hkind : instruction.kind = .transaction)
    (hbackend : setting.config.transactionBackend = none) :
    events = [] ∧ result = .error (.transactionBackendMissing setting.displayName) := by
  cases h with
  | plain htransaction _ _ => exact absurd hkind htransaction
  | untimed hbenchmark _ => exact nomatch hkind.symm.trans hbenchmark
  | timed hbenchmark _ => exact nomatch hkind.symm.trans hbenchmark
  | unbacked _ _ => exact ⟨rfl, rfl⟩
  | backed _ hsome _ _ _ => exact nomatch hbackend.symm.trans hsome

/-- A transaction ends with the error of its block. -/
theorem Closed.raised_of_endsWith {path : Path} {instruction : Instruction (Handler ω)}
    {inherited : Kind} {answers : List (Except Abort Unit)} {last : Except Abort Unit}
    {before after : Call} {events : List Event} {result ended : Except EngineError Unit}
    {error : EngineError} (h : Closed setting before last events result after)
    (hmeets : TransactionContract.passesErrorsOn answers last)
    (hends : (Task.rounds path instruction inherited answers).EndsWith ended error)
    (hauthoring : error.isAuthoring = true) : result = .error error ∧ events = [] := by
  obtain ⟨earlier, rfl⟩ := hends
  obtain ⟨-, hlast⟩ := hmeets earlier _ [] rfl
  have hhanded : TransactionContract.HandedOn
      (Setting.blockAnswer (.error error) before.outcome) last := hlast
  obtain ⟨hresult, hevents, -⟩ :=
    h.of_handedOn hhanded fun raised hraised => Except.error.inj hraised ▸ hauthoring
  exact ⟨hresult, hevents⟩

/-- What is carried out while an error arises ends with this error. -/
theorem Course.raised_of_raises {task : Task (Handler ω)} {before after : Call}
    {events : List Event} {result : Except EngineError Unit}
    (h : Course setting task before events result after)
    (hbackend : setting.Transacts .passesErrorsOn) (hplaced : task.Placed root)
    (habiding : task.Abiding) {event : Event} (hevent : event ∈ events) {error : EngineError}
    (hraises : event.Raises setting root error) : task.EndsWith result error := by
  induction h with
  | node h ih =>
    simp only [List.mem_cons, List.mem_append, List.not_mem_nil, or_false] at hevent
    -- the begin raises an error only where a backend is missing, and the end only its own result
    rcases hevent with rfl | hevent | rfl
    · cases hraises with
      | unbacked hat hkind hnone =>
        obtain rfl := Option.some.inj (hat.symm.trans hplaced.1)
        exact (h.of_unbacked hkind hnone).2
    · exact ih hplaced trivial hevent
    · cases hraises with
      | backend _ _ _ _ => rfl
  | plain htransaction hbenchmark h ih => exact ih hplaced trivial hevent
  | untimed hkind h ih => exact ih hplaced trivial hevent
  | timed hkind h ih => exact nomatch ih hplaced trivial hevent
  | unbacked hkind hnone => exact nomatch hevent
  | backed hkind hsome hmeets h hclosed ih =>
    have hcontract := hmeets _ (hbackend _ hsome)
    simp only [List.mem_cons, List.mem_append] at hevent
    rcases hevent with rfl | hevent | hevent
    · exact nomatch hraises
    · have hends := ih hplaced (.of_passesErrorsOn hcontract) hevent
      exact (hclosed.raised_of_endsWith hcontract hends hraises.isAuthoring).1
    · obtain ⟨recorded, rfl⟩ := hclosed.eq_recorded hevent
      exact nomatch hraises
  | noRound => exact nomatch hevent
  | round h hlater ih ihlater =>
    simp only [List.mem_append, List.mem_cons] at hevent
    rcases hevent with hevent | rfl | hevent
    · have hresult := ih hplaced trivial hevent
      subst hresult
      -- the block answers with the error, so that this was its last run
      obtain rfl := habiding.eq_nil
      exact ⟨[], rfl⟩
    · exact nomatch hraises
    · obtain ⟨earlier, rfl⟩ := ihlater hplaced habiding.tail hevent
      exact ⟨_ :: earlier, rfl⟩
  | leaf h => exact h.raised_of_raises hplaced hevent hraises
  | block h ih => exact ih hplaced.body trivial hevent
  | nil => exact nomatch hevent
  | raised h ih => exact ih hplaced.head trivial hevent
  | stopped h hstops ih => exact nomatch ih hplaced.head trivial hevent
  | next h hstops hlater ih ihlater =>
    rcases List.mem_append.1 hevent with hevent | hevent
    · exact nomatch ih hplaced.head trivial hevent
    · exact ihlater hplaced.tail trivial hevent

/-! ## The way out -/

theorem Event.pairwise_unwindsAfter_of_trace {events : List Event}
    (h : ∀ event ∈ events, event.IsTrace) : events.Pairwise (UnwindsAfter setting root) :=
  List.pairwise_of_forall_mem_list fun first hfirst _ _ _ hraises =>
    ((h first hfirst).not_raises hraises).elim

/-- Nothing but the end of the instrumentation follows a handler that raises an error. -/
theorem Stepped.pairwise_unwinds {path : Path} {kind inherited : Kind} {step : String}
    {handler : Handler ω} {before after : Call} {events : List Event}
    {result : Except EngineError Unit}
    (h : Stepped setting path (Scope.leafKind kind inherited) step handler before events result
      after) : events.Pairwise (Event.UnwindsAfter setting root) := by
  have hframe : ∀ {opening later : List Event} {entered : Call} {returned : Event},
      (∀ event ∈ opening, event.IsTrace) → later.Pairwise (Event.UnwindsAfter setting root) →
      (∀ second ∈ later, Event.UnwindsAfter setting root returned second) →
      (opening ++ .entered path entered :: returned :: later).Pairwise
        (Event.UnwindsAfter setting root) := by
    intro opening later entered returned hopening hlater hreturned
    rw [List.pairwise_append, List.pairwise_cons, List.pairwise_cons]
    refine ⟨Event.pairwise_unwindsAfter_of_trace hopening, ⟨fun _ _ error hraises => ?_, hreturned,
      hlater⟩, fun first hfirst _ _ error hraises => ?_⟩
    · exact nomatch hraises
    · exact ((hopening first hfirst).not_raises hraises).elim
  cases h with
  | skipped hbackend hmeets hevents => exact Event.pairwise_unwindsAfter_of_trace hevents
  | answered hopening hclosing hhandler hanswer haccepts =>
    refine hframe hopening (Event.pairwise_unwindsAfter_of_trace hclosing) ?_
    exact fun second hsecond error _ => (hclosing second hsecond).unwinds error
  | faulted hopening hclosing hhandler hfault hsettled =>
    refine hframe hopening ?_ fun second hsecond error hraises => ?_
    · rw [List.pairwise_append]
      refine ⟨Event.pairwise_unwindsAfter_of_trace hclosing, ?_, fun first hfirst _ _ _ hraises =>
        ((hclosing first hfirst).not_raises hraises).elim⟩
      cases hsettled with
      | raised hauthoring => exact List.Pairwise.nil
      | recorded hauthoring => exact List.pairwise_singleton _ _
    · rcases List.mem_append.1 hsecond with hsecond | hsecond
      · exact (hclosing second hsecond).unwinds error
      · cases hraises with
        | handler hauthoring =>
          obtain rfl := Except.error.inj hfault
          rw [(hsettled.eq_of_authoring? hauthoring).2] at hsecond
          exact nomatch hsecond
        | shape hleaf hrejection => exact nomatch hfault

/-- After an error has arisen, it is on its way out. -/
theorem Course.pairwise_unwinds {task : Task (Handler ω)} {before after : Call}
    {events : List Event} {result : Except EngineError Unit}
    (h : Course setting task before events result after)
    (hbackend : setting.Transacts .passesErrorsOn) (hplaced : task.Placed root)
    (habiding : task.Abiding) : events.Pairwise (Event.UnwindsAfter setting root) := by
  induction h with
  | node h ih =>
    rw [List.pairwise_cons, List.pairwise_append]
    refine ⟨fun second hsecond error hraises => ?_, ih hplaced trivial,
      List.pairwise_singleton _ _, fun first hfirst second hsecond error hraises => ?_⟩
    · cases hraises with
      | unbacked hat hkind hnone =>
        obtain rfl := Option.some.inj (hat.symm.trans hplaced.1)
        obtain ⟨rfl, hresult⟩ := h.of_unbacked hkind hnone
        rw [List.mem_singleton.1 hsecond]
        exact hresult
    · rw [List.mem_singleton.1 hsecond]
      exact h.raised_of_raises hbackend hplaced trivial hfirst hraises
  | plain htransaction hbenchmark h ih => exact ih hplaced trivial
  | untimed hkind h ih => exact ih hplaced trivial
  | timed hkind h ih => exact ih hplaced trivial
  | unbacked hkind hnone => exact List.Pairwise.nil
  | backed hkind hsome hmeets h hclosed ih =>
    have hcontract := hmeets _ (hbackend _ hsome)
    rw [List.pairwise_cons, List.pairwise_append]
    refine ⟨fun _ _ error hraises => ?_, ih hplaced (.of_passesErrorsOn hcontract), ?_,
      fun first hfirst second hsecond error hraises => ?_⟩
    · exact nomatch hraises
    · refine List.pairwise_of_forall_mem_list fun first hfirst _ _ error hraises => ?_
      obtain ⟨recorded, rfl⟩ := hclosed.eq_recorded hfirst
      exact nomatch hraises
    · have hends := h.raised_of_raises hbackend hplaced (.of_passesErrorsOn hcontract) hfirst
        hraises
      rw [(hclosed.raised_of_endsWith hcontract hends hraises.isAuthoring).2] at hsecond
      exact nomatch hsecond
  | noRound => exact List.Pairwise.nil
  | round h hlater ih ihlater =>
    rw [List.pairwise_append, List.pairwise_cons]
    refine ⟨ih hplaced trivial, ⟨fun _ _ error hraises => ?_, ihlater hplaced habiding.tail⟩,
      fun first hfirst second hsecond error hraises => ?_⟩
    · exact nomatch hraises
    · have hresult := h.raised_of_raises hbackend hplaced trivial hfirst hraises
      subst hresult
      obtain rfl := habiding.eq_nil
      obtain ⟨rfl, -⟩ := hlater.of_no_round
      rw [List.mem_singleton.1 hsecond]
      rfl
  | leaf h => exact h.pairwise_unwinds
  | block h ih => exact ih hplaced.body trivial
  | nil => exact List.Pairwise.nil
  | raised h ih => exact ih hplaced.head trivial
  | stopped h hstops ih => exact ih hplaced.head trivial
  | next h hstops hlater ih ihlater =>
    rw [List.pairwise_append]
    refine ⟨ih hplaced.head trivial, ihlater hplaced.tail trivial,
      fun first hfirst second hsecond error hraises => ?_⟩
    -- the list has gone on, so no error has arisen in its first member
    exact nomatch h.raised_of_raises hbackend hplaced.head trivial hfirst hraises

/-! ## Nothing else raises -/

/-- What happens while a task is carried out, with the begin and the end of the instruction around
    it if they are left out. -/
def Task.marked {η : Type} (before : Call) (events : List Event)
    (result : Except EngineError Unit) (after : Call) : Task η → List Event
  | .wrapped path _ _ => .began path before :: (events ++ [.ended path result after])
  | .node _ _ _ | .inner _ _ _ | .rounds _ _ _ _ | .members _ _ _ _ => events

theorem Stepped.exists_raises {path : Path} {kind inherited : Kind} {step : String}
    {handler : Handler ω} {before after : Call} {events : List Event} {error : EngineError}
    (h : Stepped setting path (Scope.leafKind kind inherited) step handler before events
      (.error error) after)
    (hplaced : (Task.inner path (.leaf kind step handler) inherited).Placed root) :
    ∃ event ∈ events, event.Raises setting root error := by
  obtain ⟨hat, rfl⟩ := hplaced
  cases h with
  | answered hopening hclosing hhandler hanswer haccepts =>
    refine ⟨_, List.mem_append_right _ (List.mem_cons_of_mem _ List.mem_cons_self), ?_⟩
    rename_i ending answer
    cases ending with
    | answered given =>
      obtain rfl := Except.ok.inj hanswer
      exact .shape hat (haccepts.eq_error_iff.1 rfl)
    | faulted fault => exact nomatch hanswer
    | panicked panic => exact nomatch hanswer
  | faulted hopening hclosing hhandler hfault hsettled =>
    refine ⟨_, List.mem_append_right _ (List.mem_cons_of_mem _ List.mem_cons_self), ?_⟩
    rename_i ending fault
    cases hsettled with
    | raised hauthoring =>
      cases ending with
      | answered given => exact nomatch hfault
      | faulted given =>
        obtain rfl := Except.error.inj hfault
        exact .handler hauthoring
      | panicked panic =>
        -- a panic is a fault with a text only
        obtain rfl := Except.error.inj hfault
        exact nomatch hauthoring

/-- An error at the end has arisen before. -/
theorem Course.exists_raises {task : Task (Handler ω)} {before after : Call}
    {events : List Event} {result : Except EngineError Unit}
    (h : Course setting task before events result after) (hplaced : task.Placed root)
    {error : EngineError} (herror : result = .error error) :
    ∃ event ∈ task.marked before events result after, event.Raises setting root error := by
  induction h with
  | node h ih => exact ih hplaced herror
  | plain htransaction hbenchmark h ih =>
    obtain ⟨event, hevent, hraises⟩ := ih hplaced herror
    exact ⟨event, List.mem_cons_of_mem _ (List.mem_append_left _ hevent), hraises⟩
  | untimed hkind h ih =>
    obtain ⟨event, hevent, hraises⟩ := ih hplaced herror
    exact ⟨event, List.mem_cons_of_mem _ (List.mem_append_left _ hevent), hraises⟩
  | unbacked hkind hnone =>
    obtain rfl := Except.error.inj herror
    exact ⟨_, List.mem_cons_self, .unbacked hplaced.1 hkind hnone⟩
  | backed hkind hsome hmeets h hclosed ih =>
    subst herror
    cases hclosed with
    | faulted hsignal hsettled =>
      refine ⟨_, List.mem_cons_of_mem _ (List.mem_append_right _ (List.mem_singleton_self _)), ?_⟩
      exact .backend hplaced.1 hkind hsome hsettled.isAuthoring
  | leaf h =>
    subst herror
    exact h.exists_raises hplaced
  | block h ih => exact ih hplaced.body herror
  | raised h ih => exact ih hplaced.head herror
  | next h hstops hlater ih ihlater =>
    obtain ⟨event, hevent, hraises⟩ := ihlater hplaced.tail herror
    exact ⟨event, List.mem_append_right _ hevent, hraises⟩
  | _ => exact nomatch herror

end OperationPipeline

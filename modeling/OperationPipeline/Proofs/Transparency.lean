import OperationPipeline.Proofs.Provenance

set_option autoImplicit false

/-! # Transactions over a faithful backend

A backend is faithful if it runs its block once and hands on the block's answer. Over such a backend
a transaction does what its body does (`Setting.runTransaction_eq`), and it leaves nothing behind:
the signal to roll back ends where it began, so that all that is ever recorded or raised comes from
handlers or from how the operation is declared (`Course.recorded_of_handler`, `Course.mentions`). -/

namespace OperationPipeline

variable {ω : Type} {setting : Setting ω}

/-! ## What becomes of the answer of a block -/

theorem Fault.authoring?_of_error? {fault : Fault} {error : EngineError}
    (h : fault.error? = some error) (hauthoring : error.isAuthoring = true) :
    fault.authoring? = some error := by
  rw [authoring?, h]
  exact if_pos hauthoring

/-- A block that was left without an error is answered by a success or by the signal to roll back,
    a block in which an error was raised by that error. -/
theorem TransactionContract.HandedOn.of_blockAnswer {walked : Except EngineError Unit}
    {outcome : Outcome} {last : Except Abort Unit}
    (h : HandedOn (Setting.blockAnswer walked outcome) last) :
    walked = .ok () ∧ (∀ raised, last = .error raised → raised.fault? = none)
      ∨ ∃ error raised fault, walked = .error error ∧ last = .error raised
        ∧ raised.fault? = some fault ∧ fault.error? = some error := by
  generalize hanswer : Setting.blockAnswer walked outcome = answer at h
  cases h with
  | success =>
    obtain ⟨hwalked, -⟩ := (Setting.blockAnswer_eq_ok_iff walked outcome).1 hanswer
    exact Or.inl ⟨hwalked, nofun⟩
  | error abort contexts =>
    cases walked with
    | error error =>
      obtain rfl := Except.error.inj hanswer
      exact Or.inr ⟨error, _, ⟨.engine error, contexts ++ []⟩, rfl, rfl, rfl, rfl⟩
    | ok u =>
      refine Or.inl ⟨rfl, fun raised hraised => ?_⟩
      obtain rfl := Except.error.inj hraised
      refine (fault?_mk_append_eq_none_iff abort contexts).2 ?_
      cases hfailed : outcome.isFailure with
      | true =>
        simp only [Setting.blockAnswer, hfailed, if_true, Except.error.injEq] at hanswer
        subst hanswer
        rfl
      | false => simp [Setting.blockAnswer, hfailed] at hanswer

/-- A transaction ends as its block does, and nothing is recorded at its end. -/
theorem Closed.of_handedOn {walked : Except EngineError Unit} {outcome : Outcome}
    {before after : Call} {last : Except Abort Unit} {events : List Event}
    {result : Except EngineError Unit} (h : Closed setting before last events result after)
    (hlast : TransactionContract.HandedOn (Setting.blockAnswer walked outcome) last)
    (hauthoring : ∀ error, walked = .error error → error.isAuthoring = true) :
    result = walked ∧ events = [] ∧ after = before := by
  rcases hlast.of_blockAnswer with ⟨rfl, hsignal⟩ | ⟨error, raised, fault, rfl, rfl, hfault, herror⟩
  · cases h with
    | committed => exact ⟨rfl, rfl, rfl⟩
    | rolledBack _ => exact ⟨rfl, rfl, rfl⟩
    | faulted hfault hsettled => exact nomatch (hsignal _ rfl).symm.trans hfault
  · have hraises := Fault.authoring?_of_error? herror (hauthoring error rfl)
    cases h with
    | rolledBack hsignal => exact nomatch hsignal.symm.trans hfault
    | faulted hfault' hsettled =>
      obtain rfl := Option.some.inj (hfault'.symm.trans hfault)
      cases hsettled with
      | raised hraised =>
        obtain rfl := Option.some.inj (hraised.symm.trans hraises)
        exact ⟨rfl, rfl, rfl⟩
      | recorded hnone => exact nomatch hnone.symm.trans hraises

/-! ## The body without its transaction -/

/-- The body of an instruction as a list. -/
def Instruction.members {η : Type} : Instruction η → List (Instruction η)
  | .leaf _ name handler => [.leaf .step name handler]
  | .block _ body => body

namespace Setting

theorem walkAll_singleton (instruction : Instruction (Handler ω)) (scope : Scope) :
    setting.walkAll [instruction] scope = setting.walk instruction scope.leaf := by
  funext state
  rw [walkAll_cons]
  rcases setting.walk instruction scope.leaf state with ⟨result, after⟩
  cases result with
  | error error => rfl
  | ok u =>
    dsimp only
    rw [walkAll_nil, ite_self]

/-- A transaction is put around the walk of its body under the scope of a whole operation. -/
theorem walk_transaction {instruction : Instruction (Handler ω)}
    (hkind : instruction.kind = .transaction) (inherited : Kind) :
    setting.walk instruction inherited
      = setting.runTransaction (setting.walkAll instruction.members .root) := by
  cases instruction with
  | leaf kind name handler =>
    obtain rfl : kind = .transaction := hkind
    rw [Instruction.members, walkAll_singleton]
    rfl
  | block kind body =>
    obtain rfl : kind = .transaction := hkind
    rfl

/-- Whatever a walk raises describes a wrongly declared or configured operation. -/
theorem isAuthoring_of_walkAll {body : List (Instruction (Handler ω))} {scope : Scope}
    {state : State ω} {error : EngineError}
    (h : (setting.walkAll body scope state).1 = .error error) : error.isAuthoring = true := by
  have hlogs := setting.logs_followAll body [] 0 scope ⟨state.call, ⟨state.world, []⟩⟩
  obtain ⟨events, -, hcourse⟩ :=
    setting.takes_followAll body [] 0 scope ⟨state.call, ⟨state.world, []⟩⟩
  exact hcourse.isAuthoring ((congrArg Prod.fst hlogs).trans h)

/-- Over a faithful backend, a transaction does what its body does in the world in which the backend
    runs it; only the world at the end is as the backend leaves it. -/
theorem runTransaction_eq {backend : TransactionBackend ω}
    (hbackend : setting.config.transactionBackend = some backend)
    (hmeets : backend.Meets TransactionContract.handsOn)
    (body : State ω → Except EngineError Unit × State ω)
    (hauthoring : ∀ state error, (body state).1 = .error error → error.isAuthoring = true)
    (state : State ω) {interaction : Interaction ω (Except Abort Unit) (Except Abort Unit)}
    (hinteraction : interaction = backend setting.config.transactionMethod
      setting.config.transactionOptions state.world) {ended : Except EngineError Unit × State ω}
    (hended : ended = body ⟨state.call, interaction.start⟩) :
    setting.runTransaction body state
        = (ended.1, ⟨ended.2.call, (interaction.drive (transactionBlock body) state.call).2.2⟩)
      ∧ interaction.answers (transactionBlock body) state.call
        = [blockAnswer ended.1 ended.2.call.outcome] := by
  subst hinteraction
  have hplay := (hmeets setting.config.transactionMethod setting.config.transactionOptions
    state.world).drive (transactionBlock body) state.call
  obtain ⟨answer, hanswers, hlast⟩ := hplay
  obtain ⟨hanswer, hcall⟩ := Interaction.drive_of_answers_eq_singleton hanswers
  rw [transactionBlock, ← hended] at hanswer hcall
  dsimp only at hanswer hcall
  subst hanswer
  refine ⟨?_, hanswers⟩
  rw [runTransaction, hbackend]
  dsimp only
  generalize Interaction.drive (transactionBlock body) _ state.call = play at hlast hcall ⊢
  obtain ⟨last, call, world⟩ := play
  dsimp only at hlast hcall
  subst hcall
  rcases hlast.of_blockAnswer with ⟨hwalked, hsignal⟩ | ⟨error, raised, fault, hwalked, rfl, hfault,
    herror⟩
  · rw [hwalked]
    cases last with
    | ok u => rfl
    | error raised =>
      dsimp only
      rw [hsignal raised rfl]
  · have hraises := Fault.authoring?_of_error? herror
      (hauthoring _ error ((congrArg Prod.fst hended).symm.trans hwalked))
    dsimp only
    rw [hfault, hwalked]
    exact setting.settle_authoring transactionStep fault ⟨ended.2.call, world⟩ hraises

end Setting

/-! ## Nothing but the handlers -/

/-- A block that is run once gives the answer to what was done in it. -/
theorem Course.of_one_round {path : Path} {instruction : Instruction (Handler ω)}
    {inherited : Kind} {answer : Except Abort Unit} {before after : Call} {events : List Event}
    {result : Except EngineError Unit}
    (h : Course setting (.rounds path instruction inherited [answer]) before events result after) :
    ∃ walked inside, Course setting (.inner path instruction inherited) before inside walked after
      ∧ answer = Setting.blockAnswer walked after.outcome := by
  cases h with
  | round h hlater =>
    obtain ⟨-, rfl⟩ := hlater.of_no_round
    exact ⟨_, _, h, rfl⟩

/-- Nothing happens at the end of a transaction over a faithful backend. -/
theorem Course.closed_of_handsOn {path : Path} {instruction : Instruction (Handler ω)}
    {inherited : Kind} {before mid after : Call} {events later : List Event}
    {answers : List (Except Abort Unit)} {last : Except Abort Unit}
    {ended result : Except EngineError Unit}
    (h : Course setting (.rounds path instruction inherited answers) before events ended mid)
    (hmeets : TransactionContract.handsOn answers last)
    (hclosed : Closed setting mid last later result after) : later = [] ∧ after = mid := by
  obtain ⟨answer, rfl, hlast⟩ := hmeets
  obtain ⟨walked, inside, hinside, rfl⟩ := h.of_one_round
  exact (hclosed.of_handedOn hlast fun error herror => hinside.isAuthoring herror).2

/-- Over a faithful backend, whatever is recorded is the fault of a handler. -/
theorem Course.recorded_of_handler {task : Task (Handler ω)} {before after : Call}
    {events : List Event} {result : Except EngineError Unit}
    (h : Course setting task before events result after) (hbackend : setting.Transacts .handsOn)
    {recorded : Fault} (hevent : .recorded recorded ∈ events) :
    Event.FaultOfHandler events recorded := by
  induction h with
  | node h ih =>
    simp only [List.mem_cons, List.mem_append, List.not_mem_nil, or_false, reduceCtorEq,
      false_or] at hevent
    exact (ih hevent).mono (List.subset_cons_of_subset _ (List.subset_append_left _ _))
  | plain htransaction hbenchmark h ih => exact ih hevent
  | untimed hkind h ih => exact ih hevent
  | timed hkind h ih => exact ih hevent
  | unbacked hkind hnone => exact nomatch hevent
  | backed hkind hsome hmeets h hclosed ih =>
    obtain ⟨rfl, rfl⟩ := h.closed_of_handsOn (hmeets _ (hbackend _ hsome)) hclosed
    simp only [List.mem_cons, List.append_nil, reduceCtorEq, false_or] at hevent
    exact (ih hevent).mono (List.subset_cons_of_subset _ (List.subset_append_left _ _))
  | noRound => exact nomatch hevent
  | round h hlater ih ihlater =>
    simp only [List.mem_append, List.mem_cons, reduceCtorEq, false_or] at hevent
    rcases hevent with hevent | hevent
    · exact (ih hevent).mono (List.subset_append_left _ _)
    · exact (ihlater hevent).mono
        (List.subset_append_of_subset_right _ (List.subset_cons_self _ _))
  | leaf h => exact h.recorded hevent
  | block h ih => exact ih hevent
  | nil => exact nomatch hevent
  | raised h ih => exact ih hevent
  | stopped h hstops ih => exact ih hevent
  | next h hstops hlater ih ihlater =>
    rcases List.mem_append.1 hevent with hevent | hevent
    · exact (ih hevent).mono (List.subset_append_left _ _)
    · exact (ihlater hevent).mono (List.subset_append_right _ _)

/-- Over a faithful backend, whatever the outcome mentions at the end it mentioned before, or it
    comes from a handler. -/
theorem Course.mentions {task : Task (Handler ω)} {before after : Call} {events : List Event}
    {result : Except EngineError Unit} (h : Course setting task before events result after)
    (hbackend : setting.Transacts .handsOn) {text : String}
    (hmentions : after.outcome.Mentions text) :
    before.outcome.Mentions text ∨ Event.Brought events text := by
  induction h with
  | node h ih =>
    refine (ih hmentions).imp id fun hbrought => hbrought.mono ?_
    exact List.subset_cons_of_subset _ (List.subset_append_left _ _)
  | plain htransaction hbenchmark h ih => exact ih hmentions
  | untimed hkind h ih => exact ih hmentions
  | timed hkind h ih => exact ih hmentions
  | unbacked hkind hnone => exact Or.inl hmentions
  | backed hkind hsome hmeets h hclosed ih =>
    obtain ⟨rfl, rfl⟩ := h.closed_of_handsOn (hmeets _ (hbackend _ hsome)) hclosed
    refine (ih hmentions).imp id fun hbrought => hbrought.mono ?_
    exact List.subset_cons_of_subset _ (List.subset_append_left _ _)
  | noRound => exact Or.inl hmentions
  | round h hlater ih ihlater =>
    rcases ihlater hmentions with hmentions | hbrought
    · exact (ih hmentions).imp id fun hbrought => hbrought.mono (List.subset_append_left _ _)
    · refine Or.inr (hbrought.mono ?_)
      exact List.subset_append_of_subset_right _ (List.subset_cons_self _ _)
  | leaf h => exact h.mentions hmentions
  | block h ih => exact ih hmentions
  | nil => exact Or.inl hmentions
  | raised h ih => exact ih hmentions
  | stopped h hstops ih => exact ih hmentions
  | next h hstops hlater ih ihlater =>
    rcases ihlater hmentions with hmentions | hbrought
    · exact (ih hmentions).imp id fun hbrought => hbrought.mono (List.subset_append_left _ _)
    · exact Or.inr (hbrought.mono (List.subset_append_right _ _))

/-! ## Whole calls -/

theorem CallCourse.recorded_of_handler {instructions : List (Instruction (Handler ω))}
    {start after : Call} {events : List Event} {result : Option (Except EngineError Unit)}
    (h : CallCourse setting instructions start events result after)
    (hbackend : setting.Transacts .handsOn) {recorded : Fault}
    (hevent : .recorded recorded ∈ events) : Event.FaultOfHandler events recorded := by
  obtain ⟨walked, _, _, hsubset, hwalked, hwalk⟩ := h.of_not_trace hevent id
  exact (hwalk.recorded_of_handler hbackend hwalked).mono hsubset

theorem CallCourse.mentions {instructions : List (Instruction (Handler ω))}
    {start after : Call} {events : List Event} {result : Option (Except EngineError Unit)}
    (h : CallCourse setting instructions start events result after)
    (hbackend : setting.Transacts .handsOn) {text : String}
    (hmentions : after.outcome.Mentions text) :
    start.outcome.Mentions text ∨ Event.Brought events text := by
  cases h with
  | skipped hskips hmeets hevents => exact Or.inl hmentions
  | walked hopening hclosing h =>
    refine (h.mentions hbackend hmentions).imp id fun hbrought => hbrought.mono ?_
    exact List.subset_append_of_subset_left _ (List.subset_append_right _ _)

theorem CallCourse.isAuthoring {instructions : List (Instruction (Handler ω))}
    {start after : Call} {events : List Event} {result : Option (Except EngineError Unit)}
    (h : CallCourse setting instructions start events result after) {error : EngineError}
    (herror : result = some (.error error)) : error.isAuthoring = true := by
  cases h with
  | skipped hskips hmeets hevents => exact nomatch herror
  | walked hopening hclosing h => exact h.isAuthoring (Option.some.inj herror)

theorem Config.isAuthoring_of_validate {τ ι ρ : Type} {config : Config τ ι ρ} {error : EngineError}
    (h : config.validate = .error error) : error.isAuthoring = true := by
  unfold validate at h
  split at h
  · obtain rfl := Except.error.inj h
    rfl
  · split at h
    · obtain rfl := Except.error.inj h
      rfl
    · exact nomatch h

namespace Setting

/-- Whatever a call raises describes a wrongly declared or configured operation. -/
theorem isAuthoring_of_perform {instructions : List (Instruction (Handler ω))}
    {arguments : Arguments} {world : ω} {error : EngineError}
    (h : (setting.perform instructions arguments world).1 = .error error) :
    error.isAuthoring = true := by
  cases hvalid : setting.config.validate with
  | error invalid =>
    rw [perform, hvalid] at h
    obtain rfl := Except.error.inj h
    exact Config.isAuthoring_of_validate hvalid
  | ok u =>
    have hcourse := setting.takes_followCall instructions arguments world
    rw [setting.plain_followCall instructions arguments world hvalid] at h
    refine hcourse.isAuthoring ?_
    generalize setting.followCall instructions arguments world = ended at h ⊢
    obtain ⟨result, after⟩ := ended
    cases result with
    | none => cases h
    | some result =>
      cases result with
      | ok u => cases h
      | error raised => exact congrArg (some ∘ Except.error) (Except.error.inj h)

/-- Over a faithful backend, a transaction is transparent: it ends as the walk of its body under the
    scope of a whole operation does, in the world in which the backend runs the block, and the block
    goes through exactly if that walk raises nothing and leaves no failure, be the call finished or
    not. The signal to roll back is invisible, however deep transactions are nested: the faults that
    are recorded and reported are those of handlers, each exception of the outcome comes from a
    handler, and what a call raises is about how the operation is declared or configured. -/
theorem transaction_transparent (setting : Setting ω) {backend : TransactionBackend ω}
    (hbackend : setting.config.transactionBackend = some backend)
    (hmeets : backend.Meets TransactionContract.handsOn) :
    (∀ (instruction : Instruction (Handler ω)) (inherited : Kind) (state : State ω),
      instruction.kind = .transaction →
        let interaction := backend setting.config.transactionMethod
          setting.config.transactionOptions state.world
        let body := setting.walkAll instruction.members .root
        let ended := body ⟨state.call, interaction.start⟩
        setting.walk instruction inherited state
            = (ended.1, ⟨ended.2.call, (interaction.drive (transactionBlock body) state.call).2.2⟩)
          ∧ ∃ answer, interaction.answers (transactionBlock body) state.call = [answer]
            ∧ (answer = .ok () ↔ ended.1 = .ok () ∧ ended.2.call.outcome.isFailure = false))
      ∧ ∀ (instructions : List (Instruction (Handler ω))) (arguments : Arguments) (world : ω),
        (∀ recorded, .recorded recorded ∈ setting.transcript instructions arguments world →
          Event.FaultOfHandler (setting.transcript instructions arguments world) recorded)
        ∧ (∀ outcome text, (setting.perform instructions arguments world).1 = .ok outcome →
          outcome.Mentions text →
          Event.Brought (setting.transcript instructions arguments world) text)
        ∧ ∀ error, (setting.perform instructions arguments world).1 = .error error →
          error.isAuthoring = true := by
  have htransacts : setting.Transacts .handsOn := by
    intro other hother
    obtain rfl := Option.some.inj (hbackend.symm.trans hother)
    exact hmeets
  refine ⟨?_, fun instructions arguments world => ⟨?_, ?_, ?_⟩⟩
  · intro instruction inherited state hkind interaction body ended
    obtain ⟨hrun, hanswers⟩ := runTransaction_eq hbackend hmeets body
      (fun _ _ herror => isAuthoring_of_walkAll herror) state (rfl : interaction = _)
      (rfl : ended = _)
    rw [walk_transaction hkind]
    exact ⟨hrun, _, hanswers, blockAnswer_eq_ok_iff _ _⟩
  · intro recorded hevent
    rcases setting.transcript_cases instructions arguments world with hnil | ⟨_, _, hcourse⟩
    · rw [hnil] at hevent
      exact nomatch hevent
    · exact hcourse.recorded_of_handler htransacts hevent
  · intro outcome text hperform hmentions
    obtain ⟨htranscript, -, rfl⟩ := of_perform_eq_ok hperform
    rw [htranscript]
    have hcourse := setting.takes_followCall instructions arguments world
    exact (hcourse.mentions htransacts hmentions).resolve_left (Outcome.not_mentions_empty text)
  · exact fun error hperform => isAuthoring_of_perform hperform

/-- A transaction inside another one, with a step that fails. -/
def nestedTransactions : Instruction (Handler Unit) :=
  .block .transaction [.block .transaction [.leaf .step "first" Handler.complain]]

/-- Both blocks are rolled back, and nothing shows but the error of the step. -/
theorem nested_transactions_transparent :
    direct.config.transactionBackend = some .direct
      ∧ (TransactionBackend.direct : TransactionBackend Unit).Meets TransactionContract.handsOn
      ∧ nestedTransactions.kind = .transaction
      ∧ direct.walk nestedTransactions .step ⟨Call.start {}, ()⟩
        = direct.walkAll nestedTransactions.members .root ⟨Call.start {}, ()⟩ := by
  refine ⟨rfl, TransactionBackend.meets_direct, rfl, ?_⟩
  have htransparent := transaction_transparent direct rfl TransactionBackend.meets_direct
  exact (htransparent.1 nestedTransactions .step ⟨Call.start {}, ()⟩ rfl).1

end Setting

end OperationPipeline

import OperationPipeline.Proofs.Blocks

set_option autoImplicit false

/-! # Nothing commits over a failure

A backend commits when its block goes through. Once a failure shows anywhere in a call, no block of
any of its transactions goes through any more (`Course.pairwise_commits`): failures stay, and every
block looks at the outcome before it answers. Nothing is asked of backends for this. They may run
their blocks as often as they like and make of the answers what they like. -/

namespace OperationPipeline

variable {ω : Type} {setting : Setting ω}

/-! ## Signs of a failure -/

/-- Whether an event shows that the outcome is a failure: it is one when an instruction begins or
    ends or when a handler is entered or returns, a block gives the signal to roll back, or a fault
    is recorded. -/
def Event.ShowsFailure : Event → Prop
  | .began _ call | .ended _ _ call | .entered _ call | .returned _ _ call =>
    call.outcome.isFailure = true
  | .blockAnswered (.error abort) => abort.fault? = none
  | .recorded _ => True
  | .blockAnswered (.ok ()) | .transactionOpened _ _ | .traceOpened _ _ _ | .traceRan => False

/-- Whether the second event may come after the first: no block goes through after a failure. -/
def Event.CommitsBefore (first second : Event) : Prop :=
  first.ShowsFailure → second ≠ .blockAnswered (.ok ())

theorem Event.IsTrace.not_showsFailure {event : Event} (h : event.IsTrace) :
    ¬ event.ShowsFailure := by
  cases event with
  | traceOpened _ _ _ => exact id
  | traceRan => exact id
  | _ => exact h.elim

theorem Settled.failed_of_recorded {step : String} {fault recorded : Fault} {before after : Call}
    {events : List Event} {result : Except EngineError Unit}
    (h : Settled setting step fault before events result after)
    (hevent : .recorded recorded ∈ events) : after.outcome.isFailure = true := by
  cases h with
  | raised hauthoring => exact nomatch hevent
  | recorded hauthoring => exact Outcome.isFailure_addException _ _ _ _

theorem Closed.failed_of_mem {before after : Call} {last : Except Abort Unit} {events : List Event}
    {result : Except EngineError Unit} (h : Closed setting before last events result after)
    {event : Event} (hevent : event ∈ events) : after.outcome.isFailure = true := by
  obtain ⟨recorded, rfl⟩ := h.eq_recorded hevent
  cases h with
  | committed => exact nomatch hevent
  | rolledBack hsignal => exact nomatch hevent
  | faulted hsignal hsettled => exact hsettled.failed_of_recorded hevent

/-- A block gives the signal to roll back only over a failure. -/
theorem Setting.failed_of_signal {walked : Except EngineError Unit} {outcome : Outcome}
    (h : (Event.blockAnswered (blockAnswer walked outcome)).ShowsFailure) :
    outcome.isFailure = true := by
  cases hanswer : blockAnswer walked outcome with
  | ok u =>
    rw [hanswer] at h
    exact h.elim
  | error abort =>
    rw [hanswer] at h
    exact isFailure_of_blockAnswer hanswer h

theorem Stepped.failed_of_shows {path : Path} {kind : Kind} {step : String} {handler : Handler ω}
    {before after : Call} {events : List Event} {result : Except EngineError Unit}
    (h : Stepped setting path kind step handler before events result after)
    (hedits : handler.Edits) (hfilled : before.outcome.Filled) {event : Event}
    (hevent : event ∈ events) (hshows : event.ShowsFailure) : after.outcome.isFailure = true := by
  cases h with
  | skipped hbackend hmeets hevents => exact ((hevents event hevent).not_showsFailure hshows).elim
  | answered hopening hclosing hhandler hanswer haccepts =>
    obtain ⟨htraced, -⟩ := Setting.grows_tracedCall step before hfilled
    obtain ⟨hmid, hfailed⟩ := hedits.leads hhandler htraced
    simp only [List.mem_append, List.mem_cons] at hevent
    rcases hevent with hevent | rfl | rfl | hevent
    · exact ((hopening event hevent).not_showsFailure hshows).elim
    · exact (haccepts.grows setting hmid).2 (hfailed hshows)
    · exact (haccepts.grows setting hmid).2 hshows
    · exact ((hclosing event hevent).not_showsFailure hshows).elim
  | faulted hopening hclosing hhandler hfault hsettled =>
    obtain ⟨htraced, -⟩ := Setting.grows_tracedCall step before hfilled
    obtain ⟨hmid, hfailed⟩ := hedits.leads hhandler htraced
    simp only [List.mem_append, List.mem_cons] at hevent
    rcases hevent with hevent | rfl | rfl | hevent | hevent
    · exact ((hopening event hevent).not_showsFailure hshows).elim
    · exact (hsettled.grows hmid).2 (hfailed hshows)
    · exact (hsettled.grows hmid).2 hshows
    · exact ((hclosing event hevent).not_showsFailure hshows).elim
    · obtain ⟨recorded, rfl⟩ := hsettled.eq_recorded hevent
      exact hsettled.failed_of_recorded hevent

/-- A failure that has shown is there at the end. -/
theorem Course.failed_of_shows {task : Task (Handler ω)} {before after : Call}
    {events : List Event} {result : Except EngineError Unit}
    (h : Course setting task before events result after) (hedits : task.Edits)
    (hfilled : before.outcome.Filled) {event : Event} (hevent : event ∈ events)
    (hshows : event.ShowsFailure) : after.outcome.isFailure = true := by
  -- the outcome has failed where the event is; what comes later keeps a failure (`Course.grows`)
  induction h with
  | node h ih =>
    simp only [List.mem_cons, List.mem_append, List.not_mem_nil, or_false] at hevent
    rcases hevent with rfl | hevent | rfl
    · exact (h.grows hedits hfilled).2 hshows
    · exact ih hedits hfilled hevent
    · exact hshows
  | plain htransaction hbenchmark h ih => exact ih hedits hfilled hevent
  | untimed hkind h ih => exact ih hedits hfilled hevent
  | timed hkind h ih => exact ih hedits hfilled hevent
  | unbacked hkind hbackend => exact nomatch hevent
  | backed hkind hbackend hmeets h hclosed ih =>
    simp only [List.mem_cons, List.mem_append] at hevent
    rcases hevent with rfl | hevent | hevent
    · exact hshows.elim
    · exact (hclosed.grows (h.grows hedits hfilled).1).2 (ih hedits hfilled hevent)
    · exact hclosed.failed_of_mem hevent
  | noRound => exact nomatch hevent
  | round h hlater ih ihlater =>
    obtain ⟨hfilled', -⟩ := h.grows hedits hfilled
    simp only [List.mem_append, List.mem_cons] at hevent
    rcases hevent with hevent | rfl | hevent
    · exact (hlater.grows hedits hfilled').2 (ih hedits hfilled hevent)
    · exact (hlater.grows hedits hfilled').2 (Setting.failed_of_signal hshows)
    · exact ihlater hedits hfilled' hevent
  | leaf h => exact h.failed_of_shows (hedits _ List.mem_cons_self) hfilled hevent hshows
  | block h ih => exact ih hedits hfilled hevent
  | nil => exact nomatch hevent
  | raised h ih => exact ih hedits.head hfilled hevent
  | stopped h hstops ih => exact ih hedits.head hfilled hevent
  | next h hstops hlater ih ihlater =>
    obtain ⟨hfilled', -⟩ := h.grows hedits.head hfilled
    rcases List.mem_append.1 hevent with hevent | hevent
    · exact (hlater.grows hedits.tail hfilled').2 (ih hedits.head hfilled hevent)
    · exact ihlater hedits.tail hfilled' hevent

/-! ## Answers of blocks -/

theorem Setting.blockAnswer_ne_ok_of_failed {walked : Except EngineError Unit} {outcome : Outcome}
    (hfailed : outcome.isFailure = true) : blockAnswer walked outcome ≠ .ok () := by
  intro hok
  have hsuccess := ((blockAnswer_eq_ok_iff walked outcome).1 hok).2
  exact nomatch hfailed.symm.trans hsuccess

theorem Stepped.not_blockAnswered {path : Path} {kind : Kind} {step : String}
    {handler : Handler ω} {before after : Call} {events : List Event}
    {result : Except EngineError Unit}
    (h : Stepped setting path kind step handler before events result after)
    {answer : Except Abort Unit} : .blockAnswered answer ∉ events := by
  intro hevent
  rcases h.cases_mem hevent with htrace | hentered | ⟨_, _, hreturned⟩ | ⟨_, hrecorded⟩
  · exact htrace
  · exact nomatch hentered
  · exact nomatch hreturned
  · exact nomatch hrecorded

/-- After a failure no block goes through. -/
theorem Course.not_committed {task : Task (Handler ω)} {before after : Call} {events : List Event}
    {result : Except EngineError Unit} (h : Course setting task before events result after)
    (hedits : task.Edits) (hfilled : before.outcome.Filled)
    (hfailed : before.outcome.isFailure = true) : .blockAnswered (.ok ()) ∉ events := by
  intro hevent
  induction h with
  | node h ih =>
    simp only [List.mem_cons, List.mem_append, List.not_mem_nil, or_false, reduceCtorEq,
      false_or] at hevent
    exact ih hedits hfilled hfailed hevent
  | plain htransaction hbenchmark h ih => exact ih hedits hfilled hfailed hevent
  | untimed hkind h ih => exact ih hedits hfilled hfailed hevent
  | timed hkind h ih => exact ih hedits hfilled hfailed hevent
  | unbacked hkind hbackend => exact nomatch hevent
  | backed hkind hbackend hmeets h hclosed ih =>
    simp only [List.mem_cons, List.mem_append, reduceCtorEq, false_or] at hevent
    rcases hevent with hevent | hevent
    · exact ih hedits hfilled hfailed hevent
    · obtain ⟨recorded, hrecorded⟩ := hclosed.eq_recorded hevent
      exact nomatch hrecorded
  | noRound => exact nomatch hevent
  | round h hlater ih ihlater =>
    obtain ⟨hfilled', hstays⟩ := h.grows hedits hfilled
    simp only [List.mem_append, List.mem_cons, Event.blockAnswered.injEq] at hevent
    rcases hevent with hevent | hanswer | hevent
    · exact ih hedits hfilled hfailed hevent
    · exact Setting.blockAnswer_ne_ok_of_failed (hstays hfailed) hanswer.symm
    · exact ihlater hedits hfilled' (hstays hfailed) hevent
  | leaf h => exact h.not_blockAnswered hevent
  | block h ih => exact ih hedits hfilled hfailed hevent
  | nil => exact nomatch hevent
  | raised h ih => exact ih hedits.head hfilled hfailed hevent
  | stopped h hstops ih => exact ih hedits.head hfilled hfailed hevent
  | next h hstops hlater ih ihlater =>
    obtain ⟨hfilled', hstays⟩ := h.grows hedits.head hfilled
    rcases List.mem_append.1 hevent with hevent | hevent
    · exact ih hedits.head hfilled hfailed hevent
    · exact ihlater hedits.tail hfilled' (hstays hfailed) hevent

theorem Event.commitsBefore_of_ne {first second : Event} (h : second ≠ .blockAnswered (.ok ())) :
    CommitsBefore first second :=
  fun _ => h

theorem Event.pairwise_commitsBefore_of_not_mem {events : List Event}
    (h : .blockAnswered (.ok ()) ∉ events) : events.Pairwise CommitsBefore := by
  refine List.pairwise_of_forall_mem_list fun first _ second hsecond => ?_
  exact commitsBefore_of_ne fun hcommitted => h (hcommitted ▸ hsecond)

/-- No block goes through after a failure has shown. -/
theorem Course.pairwise_commits {task : Task (Handler ω)} {before after : Call}
    {events : List Event} {result : Except EngineError Unit}
    (h : Course setting task before events result after) (hedits : task.Edits)
    (hfilled : before.outcome.Filled) : events.Pairwise Event.CommitsBefore := by
  induction h with
  | node h ih =>
    rw [List.pairwise_cons, List.pairwise_append]
    refine ⟨fun second hsecond hshows => ?_, ih hedits hfilled, List.pairwise_singleton _ _,
      fun first _ second hsecond => ?_⟩
    · rintro rfl
      simp only [List.mem_append, List.mem_singleton, reduceCtorEq, or_false] at hsecond
      exact h.not_committed hedits hfilled hshows hsecond
    · rw [List.mem_singleton.1 hsecond]
      exact Event.commitsBefore_of_ne nofun
  | plain htransaction hbenchmark h ih => exact ih hedits hfilled
  | untimed hkind h ih => exact ih hedits hfilled
  | timed hkind h ih => exact ih hedits hfilled
  | unbacked hkind hbackend => exact List.Pairwise.nil
  | backed hkind hbackend hmeets h hclosed ih =>
    rw [List.pairwise_cons, List.pairwise_append]
    refine ⟨fun _ _ hshows => hshows.elim, ih hedits hfilled, ?_, fun _ _ second hsecond => ?_⟩
    · refine Event.pairwise_commitsBefore_of_not_mem fun hevent => ?_
      obtain ⟨recorded, hrecorded⟩ := hclosed.eq_recorded hevent
      exact nomatch hrecorded
    · obtain ⟨recorded, rfl⟩ := hclosed.eq_recorded hsecond
      exact Event.commitsBefore_of_ne nofun
  | noRound => exact List.Pairwise.nil
  | round h hlater ih ihlater =>
    obtain ⟨hfilled', -⟩ := h.grows hedits hfilled
    rw [List.pairwise_append, List.pairwise_cons]
    -- a failure inside this run of the block bars its answer, and both bar what later runs answer
    refine ⟨ih hedits hfilled, ⟨fun second hsecond hshows hcommitted => ?_,
      ihlater hedits hfilled'⟩, fun first hfirst second hsecond hshows hcommitted => ?_⟩
    · have hfailed := Setting.failed_of_signal hshows
      exact hlater.not_committed hedits hfilled' hfailed (hcommitted ▸ hsecond)
    · subst hcommitted
      have hfailed := h.failed_of_shows hedits hfilled hfirst hshows
      rcases List.mem_cons.1 hsecond with hanswer | hsecond
      · exact Setting.blockAnswer_ne_ok_of_failed hfailed (Event.blockAnswered.inj hanswer).symm
      · exact hlater.not_committed hedits hfilled' hfailed hsecond
  | leaf h => exact Event.pairwise_commitsBefore_of_not_mem h.not_blockAnswered
  | block h ih => exact ih hedits hfilled
  | nil => exact List.Pairwise.nil
  | raised h ih => exact ih hedits.head hfilled
  | stopped h hstops ih => exact ih hedits.head hfilled
  | next h hstops hlater ih ihlater =>
    obtain ⟨hfilled', -⟩ := h.grows hedits.head hfilled
    rw [List.pairwise_append]
    refine ⟨ih hedits.head hfilled, ihlater hedits.tail hfilled',
      fun first hfirst second hsecond hshows hcommitted => ?_⟩
    have hfailed := h.failed_of_shows hedits.head hfilled hfirst hshows
    exact hlater.not_committed hedits.tail hfilled' hfailed (hcommitted ▸ hsecond)

/-! ## Whole calls -/

theorem CallCourse.pairwise_commits {instructions : List (Instruction (Handler ω))}
    {start after : Call} {events : List Event} {result : Option (Except EngineError Unit)}
    (h : CallCourse setting instructions start events result after)
    (hedits : ∀ leaf ∈ Instruction.leavesAll instructions, leaf.2.2.Edits)
    (hfilled : start.outcome.Filled) : events.Pairwise Event.CommitsBefore := by
  have htrace : ∀ {outer : List Event}, (∀ event ∈ outer, event.IsTrace) →
      .blockAnswered (.ok ()) ∉ outer := fun houter hevent => houter _ hevent
  cases h with
  | skipped hbackend hmeets hevents =>
    exact Event.pairwise_commitsBefore_of_not_mem (htrace hevents)
  | walked hopening hclosing h =>
    rw [List.pairwise_append, List.pairwise_append]
    refine ⟨⟨Event.pairwise_commitsBefore_of_not_mem (htrace hopening),
      h.pairwise_commits hedits hfilled, fun first hfirst _ _ hshows => ?_⟩,
      Event.pairwise_commitsBefore_of_not_mem (htrace hclosing), fun _ _ second hsecond => ?_⟩
    · exact ((hopening first hfirst).not_showsFailure hshows).elim
    · exact Event.commitsBefore_of_ne fun hcommitted => htrace hclosing (hcommitted ▸ hsecond)

namespace Setting

/-- Whatever the tree of instructions is and whatever the backends do, as long as handlers only edit
    the outcome: once an event of a call shows a failure, no block of a transaction goes through any
    more, be it around that event, nested or later. A block goes through only if the outcome is no
    failure then; and if an event inside it shows a failure, such as the signal to roll back that
    the block of an inner transaction gives, or a fault that is recorded for the backend of one,
    then the block answers its backend with an error. -/
theorem nothing_commits_over_failure (setting : Setting ω)
    (instructions : List (Instruction (Handler ω))) (arguments : Arguments) (world : ω)
    (hedits : ∀ leaf ∈ Instruction.leavesAll instructions, leaf.2.2.Edits) :
    (∀ earlier event later, setting.transcript instructions arguments world
          = earlier ++ event :: later →
        event.ShowsFailure → .blockAnswered (.ok ()) ∉ later)
      ∧ ∀ path instruction inherited call logged,
        (Instruction.whole instructions).at? path = some instruction →
        instruction.kind = .transaction → call.outcome.Filled →
          let ran := setting.followBlock instruction path inherited call logged
          (ran.1 = .ok () → ran.2.1.outcome.isFailure = false)
            ∧ ∃ events, ran.2.2.log = logged.log ++ events
              ∧ ∀ event ∈ events, event.ShowsFailure → ∃ abort, ran.1 = .error abort := by
  refine ⟨fun earlier event later htranscript hshows hcommitted => ?_, ?_⟩
  · have hpairwise : (setting.transcript instructions arguments world).Pairwise
        Event.CommitsBefore := by
      rcases setting.transcript_cases instructions arguments world with hnil | ⟨_, _, hcourse⟩
      · rw [hnil]
        exact List.Pairwise.nil
      · exact hcourse.pairwise_commits hedits Outcome.filled_empty
    rw [htranscript, List.pairwise_append, List.pairwise_cons] at hpairwise
    exact hpairwise.2.1.1 _ hcommitted hshows rfl
  · intro path instruction inherited call logged hat _ hfilled ran
    obtain ⟨events, walked, hlog, hcourse, hanswer⟩ :=
      setting.course_followBlock instruction path inherited call logged
    refine ⟨fun hok => ((blockAnswer_eq_ok_iff _ _).1 (hanswer.symm.trans hok)).2,
      events, hlog, fun event hevent hshows => ?_⟩
    have hinside : (Task.inner path instruction inherited).Edits :=
      fun leaf hleaf => hedits leaf (Instruction.leaves_subset_of_at? hat hleaf)
    have hfailed := hcourse.failed_of_shows hinside hfilled hevent hshows
    cases hran : ran.1 with
    | ok u => exact (blockAnswer_ne_ok_of_failed hfailed (hanswer.symm.trans hran)).elim
    | error abort => exact ⟨abort, rfl⟩

/-- A transaction around two others that are carried out in turn, of which the first one fails. -/
def transactionsInTurn : Instruction (Handler Unit) :=
  .block .transaction
    [.block .success
      [.leaf .transaction "first" Handler.complain,
        .leaf .transaction "second" fun state => (.answered .nothing, state)]]

/-- The first one is rolled back, and so is the one around it. -/
theorem rolls_back_around_rollback :
    (∀ leaf ∈ Instruction.leavesAll [transactionsInTurn], leaf.2.2.Edits)
      ∧ (Instruction.whole [transactionsInTurn]).at? [0] = some transactionsInTurn
      ∧ (Call.start {}).outcome.Filled
      ∧ ∃ abort, (direct.followBlock transactionsInTurn [0] .step (Call.start {}) ⟨(), []⟩).1
        = .error abort := by
  have hedits : ∀ leaf ∈ Instruction.leavesAll [transactionsInTurn], leaf.2.2.Edits := by
    intro leaf hleaf
    simp only [transactionsInTurn, Instruction.leavesAll, Instruction.leaves, List.cons_append,
      List.nil_append, List.append_nil, List.mem_cons, List.not_mem_nil, or_false] at hleaf
    rcases hleaf with rfl | rfl
    · exact Handler.edits_complain
    · exact fun _ => ⟨[], rfl⟩
  refine ⟨hedits, rfl, Outcome.filled_empty, ?_⟩
  obtain ⟨-, events, hlog, herror⟩ := (nothing_commits_over_failure direct [transactionsInTurn] {}
    () hedits).2 [0] transactionsInTurn .step (Call.start {}) ⟨(), []⟩ rfl rfl Outcome.filled_empty
  refine herror (.blockAnswered (.error Abort.rollback)) ?_ rfl
  rw [← List.nil_append events, ← hlog]
  -- the seventh event is the answer of the first inner block
  exact .tail _ (.tail _ (.tail _ (.tail _ (.tail _ (.head _)))))

end Setting

end OperationPipeline

import OperationPipeline.Proofs.CourseLaws

set_option autoImplicit false

/-! # What may still run after a finish or a failure

Once a call is finished, no handler is entered any more (`Course.unfinished_entered`). After a
failure the walk goes on only inside the bodies of `success` and `validate` blocks, from one member
to the next (`Course.respects`), and there it does go on to the end of the body unless the call is
finished or an authoring error is raised (`Course.group_completed`). -/

namespace OperationPipeline

variable {ω : Type} {setting : Setting ω}

/-! ## After a finish -/

theorem Setting.finished_tracedCall (step : String) (call : Call) :
    (setting.tracedCall step call).finished = call.finished := by
  rw [tracedCall]
  split <;> rfl

/-- No handler is entered in a call that is finished. -/
theorem Course.unfinished_entered {task : Task (Handler ω)} {before after : Call}
    {events : List Event} {result : Except EngineError Unit}
    (h : Course setting task before events result after) (hbackend : setting.Transacts .atMostOnce)
    (hsingle : task.Single) (hstart : before.finished = false) {path : Path} {call : Call}
    (hevent : .entered path call ∈ events) : call.finished = false := by
  induction h with
  | node h ih =>
    simp only [List.mem_cons, List.mem_append, List.not_mem_nil, or_false, reduceCtorEq,
      false_or] at hevent
    exact ih trivial hstart hevent
  | plain htransaction hbenchmark h ih => exact ih trivial hstart hevent
  | untimed hkind h ih => exact ih trivial hstart hevent
  | timed hkind h ih => exact ih trivial hstart hevent
  | unbacked hkind hnone => exact nomatch hevent
  | backed hkind hsome hmeets h hclosed ih =>
    simp only [List.mem_cons, List.mem_append, reduceCtorEq, false_or] at hevent
    rcases hevent with hevent | hevent
    · exact ih (hmeets _ (hbackend _ hsome)) hstart hevent
    · obtain ⟨recorded, hrecorded⟩ := hclosed.eq_recorded hevent
      exact nomatch hrecorded
  | noRound => exact nomatch hevent
  | round h hlater ih ihlater =>
    obtain rfl := hsingle.eq_nil
    obtain ⟨rfl, -⟩ := hlater.of_no_round
    simp only [List.mem_append, List.mem_singleton, reduceCtorEq, or_false] at hevent
    exact ih trivial hstart hevent
  | leaf h =>
    rcases h.cases_mem hevent with htrace | hentered | ⟨_, _, hreturned⟩ | ⟨_, hrecorded⟩
    · exact htrace.elim
    · obtain ⟨-, rfl⟩ := Event.entered.inj hentered
      rw [Setting.finished_tracedCall]
      exact hstart
    · exact nomatch hreturned
    · exact nomatch hrecorded
  | block h ih => exact ih trivial hstart hevent
  | nil => exact nomatch hevent
  | raised h ih => exact ih trivial hstart hevent
  | stopped h hstops ih => exact ih trivial hstart hevent
  | next h hstops hlater ih ihlater =>
    rcases List.mem_append.1 hevent with hevent | hevent
    · exact ih trivial hstart hevent
    · exact ihlater trivial (StopRule.finished_of_not_stops hstops) hevent

/-! ## After a failure -/

/-- Whether the second event may come after the first one: if the first is the end of an instruction
    that leaves a failed outcome and the second is the entry of a handler, their paths have to part
    in a body that goes on after failures. -/
def Event.Respects {η : Type} (root : Instruction η) (first second : Event) : Prop :=
  ∀ path result call path' call', first = .ended path result call → second = .entered path' call' →
    call.outcome.isFailure = true → root.PartInGroup path path'

theorem Event.respects_of_not_ended {η : Type} {root : Instruction η} {first second : Event}
    (h : ∀ path result call, first ≠ .ended path result call) : Respects root first second :=
  fun path result call _ _ hended => absurd hended (h path result call)

theorem Event.respects_of_not_entered {η : Type} {root : Instruction η} {first second : Event}
    (h : ∀ path call, second ≠ .entered path call) : Respects root first second :=
  fun _ _ _ path call _ hentered => absurd hentered (h path call)

theorem Event.pairwise_respects_of_not_ended {η : Type} {root : Instruction η}
    {events : List Event} (h : ∀ path result call, Event.ended path result call ∉ events) :
    events.Pairwise (Respects root) := by
  refine List.pairwise_of_forall_mem_list fun first hfirst second _ => ?_
  exact respects_of_not_ended fun path result call hended => h path result call (hended ▸ hfirst)

/-- From one member of a list to a later one. -/
theorem Course.respects_next {path : Path} {index : Nat} {instruction : Instruction (Handler ω)}
    {rest : List (Instruction (Handler ω))} {scope : Scope} {before mid after : Call}
    {events later : List Event} {result : Except EngineError Unit} {root : Instruction (Handler ω)}
    (hat : (Task.members path index (instruction :: rest) scope).At root)
    (hedits : (Task.members path index (instruction :: rest) scope).Edits)
    (hfilled : before.outcome.Filled)
    (h : Course setting (.node (path ++ [index]) instruction scope.leaf) before events (.ok ()) mid)
    (hstops : scope.rule.stops mid.finished mid.outcome.isFailure = false)
    (hlater : Course setting (.members path (index + 1) rest scope) mid later result after)
    {first second : Event} (hfirst : first ∈ events) (hsecond : second ∈ later) :
    Event.Respects root first second := by
  intro ended _ call entered _ hended hentered hfailed
  subst hended hentered
  -- the failure is still there when the list goes on, so its rule does not stop at failures
  obtain ⟨hbefore, hafter⟩ := h.grows_ended hedits.head hfirst
  rw [(hafter (hbefore hfilled).1).2 hfailed] at hstops
  obtain ⟨kind, members, hblock, -, hrule⟩ := hat
  rw [StopRule.eq_finishedOnly_of_not_stops hstops] at hrule
  have hkind := (Scope.stopRule_eq_finishedOnly_iff kind).1 hrule.symm
  have hhere : path ++ [index] <+: ended := h.covers hfirst rfl
  obtain ⟨place, hplace, hthere⟩ := hlater.covers hsecond rfl
  have hne : index ≠ place := Nat.ne_of_lt hplace
  exact ⟨path, kind, members, index, place, hblock, hkind, hne, hhere, hthere⟩

/-- After a failure, handlers are entered only where the walk goes on in a body of a `success` or
    `validate` block. -/
theorem Course.respects {task : Task (Handler ω)} {before after : Call} {events : List Event}
    {result : Except EngineError Unit} (h : Course setting task before events result after)
    (hbackend : setting.Transacts .atMostOnce) (hsingle : task.Single) (hedits : task.Edits)
    {root : Instruction (Handler ω)} (hat : task.At root) (hfilled : before.outcome.Filled) :
    events.Pairwise (Event.Respects root) := by
  induction h with
  | node h ih =>
    rw [List.pairwise_cons, List.pairwise_append]
    refine ⟨fun _ _ => Event.respects_of_not_ended nofun, ih trivial hedits hat hfilled,
      List.pairwise_singleton _ _, fun _ _ second hsecond => ?_⟩
    rw [List.mem_singleton.1 hsecond]
    exact Event.respects_of_not_entered nofun
  | plain htransaction hbenchmark h ih => exact ih trivial hedits hat hfilled
  | untimed hkind h ih => exact ih trivial hedits hat hfilled
  | timed hkind h ih => exact ih trivial hedits hat hfilled
  | unbacked hkind hnone => exact List.Pairwise.nil
  | backed hkind hsome hmeets h hclosed ih =>
    rw [List.pairwise_cons, List.pairwise_append]
    refine ⟨fun _ _ => Event.respects_of_not_ended nofun,
      ih (hmeets _ (hbackend _ hsome)) hedits hat hfilled, ?_, fun _ _ second hsecond => ?_⟩
    · refine Event.pairwise_respects_of_not_ended fun path result call hended => ?_
      obtain ⟨recorded, hrecorded⟩ := hclosed.eq_recorded hended
      exact nomatch hrecorded
    · obtain ⟨recorded, rfl⟩ := hclosed.eq_recorded hsecond
      exact Event.respects_of_not_entered nofun
  | noRound => exact List.Pairwise.nil
  | round h hlater ih ihlater =>
    obtain rfl := hsingle.eq_nil
    obtain ⟨rfl, -⟩ := hlater.of_no_round
    rw [List.pairwise_append]
    refine ⟨ih trivial hedits hat hfilled, List.pairwise_singleton _ _,
      fun _ _ second hsecond => ?_⟩
    rw [List.mem_singleton.1 hsecond]
    exact Event.respects_of_not_entered nofun
  | leaf h =>
    exact Event.pairwise_respects_of_not_ended fun _ _ _ hended => h.not_mark hended trivial
  | block h ih => exact ih trivial hedits hat.body hfilled
  | nil => exact List.Pairwise.nil
  | raised h ih => exact ih trivial hedits.head hat.head hfilled
  | stopped h hstops ih => exact ih trivial hedits.head hat.head hfilled
  | next h hstops hlater ih ihlater =>
    obtain ⟨hfilled', -⟩ := h.grows hedits.head hfilled
    rw [List.pairwise_append]
    refine ⟨ih trivial hedits.head hat.head hfilled,
      ihlater trivial hedits.tail hat.tail hfilled', ?_⟩
    intro first hfirst second hsecond
    exact Course.respects_next hat hedits hfilled h hstops hlater hfirst hsecond

/-! ## Complete bodies -/

/-- Whether the instruction at the path was carried out without an error. -/
def Event.CarriedOut (events : List Event) (path : Path) : Prop :=
  ∃ before after, Event.began path before ∈ events ∧ Event.ended path (.ok ()) after ∈ events

theorem Event.CarriedOut.mono {events more : List Event} {path : Path}
    (h : CarriedOut events path) (hsubset : events ⊆ more) : CarriedOut more path := by
  obtain ⟨before, after, hbegan, hended⟩ := h
  exact ⟨before, after, hsubset hbegan, hsubset hended⟩

theorem Course.carriedOut {path : Path} {instruction : Instruction (Handler ω)} {inherited : Kind}
    {before after : Call} {events : List Event}
    (h : Course setting (.node path instruction inherited) before events (.ok ()) after) :
    Event.CarriedOut events path := by
  cases h with
  | node h =>
    refine ⟨before, after, List.mem_cons_self, List.mem_cons_of_mem _ ?_⟩
    exact List.mem_append_right _ (List.mem_singleton_self _)

/-- How a list ends that goes on after failures: with an error, with a finished call, or with all
    its members carried out. -/
def Event.Completed (events : List Event) (path : Path) (index count : Nat)
    (result : Except EngineError Unit) (after : Call) : Prop :=
  (∃ error, result = .error error) ∨ after.finished = true
    ∨ ∀ place, index ≤ place → place < index + count → CarriedOut events (path ++ [place])

theorem Course.completed {path : Path} {index : Nat} {body : List (Instruction (Handler ω))}
    {scope : Scope} {before after : Call} {events : List Event} {result : Except EngineError Unit}
    (h : Course setting (.members path index body scope) before events result after)
    (hrule : scope.rule = .finishedOnly) :
    Event.Completed events path index body.length result after := by
  generalize htask : Task.members path index body scope = task at h
  induction h generalizing index body with
  | nil =>
    obtain ⟨rfl, rfl, rfl, rfl⟩ := Task.members.inj htask
    refine Or.inr (Or.inr fun place hindex hplace => ?_)
    exact absurd hplace (Nat.not_lt.2 hindex)
  | raised h => exact Or.inl ⟨_, rfl⟩
  | stopped h hstops =>
    obtain ⟨rfl, rfl, rfl, rfl⟩ := Task.members.inj htask
    rw [hrule] at hstops
    exact Or.inr (Or.inl hstops)
  | @next _ _ _ rest _ _ _ _ _ _ _ h hstops hlater ih ihlater =>
    obtain ⟨rfl, rfl, rfl, rfl⟩ := Task.members.inj htask
    rcases ihlater rfl with herror | hfinished | hall
    · exact Or.inl herror
    · exact Or.inr (Or.inl hfinished)
    · refine Or.inr (Or.inr fun place hindex hplace => ?_)
      rcases Nat.eq_or_lt_of_le hindex with rfl | hindex
      · exact h.carriedOut.mono (List.subset_append_left _ _)
      · have hbound : place < index + 1 + rest.length := by
          rw [List.length_cons] at hplace
          omega
        exact (hall place hindex hbound).mono (List.subset_append_right _ _)
  | _ => exact nomatch htask

/-- Whether the block at the path has come to its end as a body that goes on after failures does. -/
def Event.GroupCompleted (events : List Event) (path : Path) (count : Nat) : Prop :=
  ∃ result after, Event.ended path result after ∈ events
    ∧ (after.finished = true ∨ (∃ error, result = .error error ∧ error.isAuthoring = true)
      ∨ ∀ index, index < count → CarriedOut events (path ++ [index]))

theorem Event.GroupCompleted.mono {events more : List Event} {path : Path} {count : Nat}
    (h : GroupCompleted events path count) (hsubset : events ⊆ more) :
    GroupCompleted more path count := by
  obtain ⟨result, after, hended, hcompleted⟩ := h
  refine ⟨result, after, hsubset hended, hcompleted.imp id (Or.imp id fun hall => ?_)⟩
  exact fun index hindex => (hall index hindex).mono hsubset

theorem Course.group_completed_node {path : Path} {kind inherited : Kind}
    {body : List (Instruction (Handler ω))} (hkind : kind = .success ∨ kind = .validate)
    {before after : Call} {events : List Event} {result : Except EngineError Unit}
    (h : Course setting (.node path (.block kind body) inherited) before events result after) :
    Event.GroupCompleted events path body.length := by
  have hrule : (Scope.inside kind inherited).rule = .finishedOnly :=
    (Scope.stopRule_eq_finishedOnly_iff kind).2 hkind
  have hended : Event.ended path result after ∈ events := by
    cases h with
    | node h =>
      exact List.mem_cons_of_mem _ (List.mem_append_right _ (List.mem_singleton_self _))
  have hplain : kind ≠ .transaction ∧ kind ≠ .benchmark := by
    rcases hkind with rfl | rfl <;> exact ⟨nofun, nofun⟩
  refine ⟨result, after, hended, ?_⟩
  cases h with
  | node h =>
    have hmembers := h.members_of_wrapped hplain.1 hplain.2
    rcases hmembers.completed hrule with ⟨error, herror⟩ | hfinished | hall
    · exact Or.inr (Or.inl ⟨error, herror, hmembers.isAuthoring herror⟩)
    · exact Or.inl hfinished
    · refine Or.inr (Or.inr fun index hindex => ?_)
      have hindex' : index < 0 + body.length := by omega
      refine (hall index (Nat.zero_le index) hindex').mono ?_
      exact List.subset_cons_of_subset _ (List.subset_append_left _ _)

/-- Once the body of a `success` or `validate` block is entered, it is carried out to its end. -/
theorem Course.group_completed {task : Task (Handler ω)} {before after : Call}
    {events : List Event} {result : Except EngineError Unit}
    (h : Course setting task before events result after) {root : Instruction (Handler ω)}
    (hat : task.At root) {path : Path} {kind : Kind} {body : List (Instruction (Handler ω))}
    (hblock : root.at? path = some (.block kind body)) (hkind : kind = .success ∨ kind = .validate)
    {call : Call} (hevent : .began path call ∈ events) :
    Event.GroupCompleted events path body.length := by
  induction h with
  | node h ih =>
    simp only [List.mem_cons, List.mem_append, List.not_mem_nil, or_false, reduceCtorEq] at hevent
    rcases hevent with hevent | hevent
    · obtain ⟨rfl, rfl⟩ := Event.began.inj hevent
      obtain rfl := Option.some.inj (hblock.symm.trans hat)
      exact Course.group_completed_node hkind (.node h)
    · refine (ih hat hevent).mono ?_
      exact List.subset_cons_of_subset _ (List.subset_append_left _ _)
  | plain htransaction hbenchmark h ih => exact ih hat hevent
  | untimed hkind h ih => exact ih hat hevent
  | timed hkind h ih => exact ih hat hevent
  | unbacked hkind hnone => exact nomatch hevent
  | backed hkind hsome hmeets h hclosed ih =>
    simp only [List.mem_cons, List.mem_append, reduceCtorEq, false_or] at hevent
    rcases hevent with hevent | hevent
    · refine (ih hat hevent).mono ?_
      exact List.subset_cons_of_subset _ (List.subset_append_left _ _)
    · obtain ⟨recorded, hrecorded⟩ := hclosed.eq_recorded hevent
      exact nomatch hrecorded
  | noRound => exact nomatch hevent
  | round h hlater ih ihlater =>
    simp only [List.mem_append, List.mem_cons, reduceCtorEq, false_or] at hevent
    rcases hevent with hevent | hevent
    · exact (ih hat hevent).mono (List.subset_append_left _ _)
    · refine (ihlater hat hevent).mono ?_
      exact List.subset_append_of_subset_right _ (List.subset_cons_self _ _)
  | leaf h => exact (h.not_mark hevent trivial).elim
  | block h ih => exact ih hat.body hevent
  | nil => exact nomatch hevent
  | raised h ih => exact ih hat.head hevent
  | stopped h hstops ih => exact ih hat.head hevent
  | next h hstops hlater ih ihlater =>
    rcases List.mem_append.1 hevent with hevent | hevent
    · exact (ih hat.head hevent).mono (List.subset_append_left _ _)
    · exact (ihlater hat.tail hevent).mono (List.subset_append_right _ _)

/-! ## Whole calls -/

/-- Around the walk there is nothing but the instrumentation of the operation. -/
theorem CallCourse.respects {instructions : List (Instruction (Handler ω))} {start after : Call}
    {events : List Event} {result : Option (Except EngineError Unit)}
    (h : CallCourse setting instructions start events result after)
    {root : Instruction (Handler ω)}
    (hwalk : ∀ {walked ended last},
      Course setting (.members [] 0 instructions .root) start walked ended last →
        walked.Pairwise (Event.Respects root)) :
    events.Pairwise (Event.Respects root) := by
  have htrace : ∀ {outer : List Event}, (∀ event ∈ outer, event.IsTrace) →
      outer.Pairwise (Event.Respects root) := fun houter =>
    Event.pairwise_respects_of_not_ended fun _ _ _ hended => houter _ hended
  cases h with
  | skipped hbackend hmeets hevents => exact htrace hevents
  | walked hopening hclosing h =>
    rw [List.pairwise_append, List.pairwise_append]
    refine ⟨⟨htrace hopening, hwalk h, ?_⟩, htrace hclosing, ?_⟩
    · intro first hfirst second _
      refine Event.respects_of_not_ended fun path ended call hended => ?_
      subst hended
      exact hopening _ hfirst
    · intro first _ second hsecond
      refine Event.respects_of_not_entered fun path call hentered => ?_
      subst hentered
      exact hclosing _ hsecond

namespace Setting

/-- Whatever the tree of instructions is, as long as handlers only edit the outcome and no block of
    a transaction is run twice: no handler is entered once the call is finished; if one is entered
    after an instruction that left a failed outcome, their paths part in the body of a `success` or
    `validate` block; and such a body, once it is entered, is carried out to its end unless the call
    is finished or an authoring error is raised. -/
theorem stops_after_finish_or_failure (setting : Setting ω)
    (instructions : List (Instruction (Handler ω))) (arguments : Arguments) (world : ω)
    (hedits : ∀ leaf ∈ Instruction.leavesAll instructions, leaf.2.2.Edits)
    (hbackend : setting.Transacts .atMostOnce) :
    (∀ path call, .entered path call ∈ setting.transcript instructions arguments world →
        call.finished = false)
      ∧ (∀ first result call second call',
        List.Sublist [.ended first result call, .entered second call']
            (setting.transcript instructions arguments world) →
          call.outcome.isFailure = true →
          (Instruction.whole instructions).PartInGroup first second)
      ∧ (∀ path kind body call,
        (Instruction.whole instructions).at? path = some (.block kind body) →
          (kind = .success ∨ kind = .validate) →
          .began path call ∈ setting.transcript instructions arguments world →
          Event.GroupCompleted (setting.transcript instructions arguments world) path
            body.length) := by
  have hat : (Task.members [] 0 instructions .root).At (Instruction.whole instructions) :=
    ⟨.step, instructions, rfl, List.drop_zero, rfl⟩
  rcases setting.transcript_cases instructions arguments world with hnil | ⟨_, _, hcourse⟩
  · rw [hnil]
    refine ⟨?_, ?_, ?_⟩
    · exact fun _ _ hevent => nomatch hevent
    · exact fun _ _ _ _ _ hsublist => nomatch hsublist.subset List.mem_cons_self
    · exact fun _ _ _ _ _ _ hevent => nomatch hevent
  · refine ⟨fun path call hevent => ?_, ?_, fun path kind body call hblock hkind hevent => ?_⟩
    · obtain ⟨walked, _, _, -, hwalked, hwalk⟩ := hcourse.of_not_trace hevent id
      exact hwalk.unfinished_entered hbackend trivial rfl hwalked
    · intro first result call second call' hsublist hfailed
      have hpairwise := hcourse.respects fun hwalk =>
        hwalk.respects hbackend trivial hedits hat Outcome.filled_empty
      exact List.pairwise_iff_forall_sublist.1 hpairwise hsublist _ _ _ _ _ rfl rfl hfailed
    · obtain ⟨walked, _, _, hsubset, hwalked, hwalk⟩ := hcourse.of_not_trace hevent id
      exact (hwalk.group_completed hat hblock hkind hwalked).mono hsubset

/-- A `success` block of two steps that both fail. -/
def twoComplaints : List (Instruction (Handler Unit)) :=
  [.block .success
    [.leaf .step "first" Handler.complain, .leaf .step "second" Handler.complain]]

/-- The state of the call after the first of them. -/
def failedOnce : Call :=
  (Call.start {}).mapOutcome fun outcome =>
    (outcome.addTrace (.step "first")).addError "name" (.string "missing")

/-- The second step of a `success` block is run although the first one has failed. -/
theorem goes_on_after_failure_in_success :
    (∀ leaf ∈ Instruction.leavesAll twoComplaints, leaf.2.2.Edits)
      ∧ direct.Transacts .atMostOnce
      ∧ (Instruction.whole twoComplaints).PartInGroup [0, 0] [0, 1] := by
  have hedits : ∀ leaf ∈ Instruction.leavesAll twoComplaints, leaf.2.2.Edits := by
    intro leaf hleaf
    simp only [twoComplaints, Instruction.leavesAll, Instruction.leaves, List.cons_append,
      List.nil_append, List.append_nil, List.mem_cons, List.not_mem_nil, or_false] at hleaf
    rcases hleaf with rfl | rfl <;> exact Handler.edits_complain
  have hbackend : direct.Transacts .atMostOnce :=
    transacts_direct.imp fun _ _ h => h.keepsErrors.atMostOnce
  refine ⟨hedits, hbackend, ?_⟩
  have hgroup := (stops_after_finish_or_failure direct twoComplaints {} () hedits hbackend).2.1
  have hsublist : List.Sublist
      [.ended [0, 0] (.ok ()) failedOnce,
        .entered [0, 1] (failedOnce.mapOutcome (·.addTrace (.step "second")))]
      (direct.transcript twoComplaints {} ()) :=
    -- the fifth event is the end of the first step, the seventh the entry of the second
    .cons _ (.cons _ (.cons _ (.cons _ (.cons_cons _ (.cons _ (.cons_cons _
      (List.nil_sublist _)))))))
  exact hgroup [0, 0] (.ok ()) failedOnce [0, 1] _ hsublist rfl

end Setting

end OperationPipeline

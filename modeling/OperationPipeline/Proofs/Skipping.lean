import OperationPipeline.Proofs.Observers

set_option autoImplicit false

/-! # Skipped steps

An instrumentation need not run what it is put around. A step that it does not run leaves nothing
behind, neither in the call nor in what is seen of the world, but the list that the step stands in
still looks at the call after it. This is what an empty block does as well.

Main statement: if an instrumentation always skips the steps of some names and runs everything else,
a call ends as it does without the instrumentation and with empty blocks in place of these steps
(`Setting.skipped_steps_pass_for_empty_blocks`). -/

namespace OperationPipeline

variable {ω ν : Type}

/-! ## Empty blocks in place of steps -/

namespace Instruction

variable {η : Type}

mutual

/-- The instruction with an empty block of the same kind in place of each step whose name is
    skipped. -/
def emptied (skipped : String → Bool) : Instruction η → Instruction η
  | .leaf kind name handler => if skipped name then .block kind [] else .leaf kind name handler
  | .block kind body => .block kind (emptiedAll skipped body)
termination_by structural instruction => instruction

/-- The instructions of a list with empty blocks in place of the skipped steps. -/
def emptiedAll (skipped : String → Bool) : List (Instruction η) → List (Instruction η)
  | [] => []
  | instruction :: rest => instruction.emptied skipped :: emptiedAll skipped rest
termination_by structural body => body

end

mutual

/-- The kinds of all nodes of an instruction, depth first. -/
def kinds : Instruction η → List Kind
  | .leaf kind _ _ => [kind]
  | .block kind body => kind :: kindsAll body
termination_by structural instruction => instruction

/-- The kinds of all nodes of a list of instructions, depth first. -/
def kindsAll : List (Instruction η) → List Kind
  | [] => []
  | instruction :: rest => instruction.kinds ++ kindsAll rest
termination_by structural body => body

end

end Instruction

/-! ## Instrumentation that skips steps -/

/-- Whether a setting has the given instrumentation around its single steps, which never runs the
    block of a step whose name is skipped, runs the block of any other step at least once, and leaves
    alone what is seen of the world. -/
structure Setting.Skips (setting : Setting ω) (view : ω → ν) (skipped : String → Bool)
    (backend : Instrumentation ω) : Prop where
  instrumentation : setting.config.instrumentationBackend = some backend
  level : setting.config.traceLevel = .step
  skips (step : String) (h : skipped step = true) (world : ω) :
    (setting.opened backend ("#" ++ step) world).Meets fun runs _ => runs = []
  runs (step : String) (h : skipped step = false) (world : ω) :
    (setting.opened backend ("#" ++ step) world).Meets fun runs _ => runs ≠ []
  spares (traceName : String) (world : ω) :
    (setting.opened backend traceName world).Drifts
      (fun before after => view after = view before) world

/-- The setting without instrumentation. -/
def Setting.uninstrumented (setting : Setting ω) : Setting ω :=
  { setting with config := { setting.config with instrumentationBackend := none } }

/-- An interaction that never runs its block has nothing to do but to end. -/
theorem Interaction.eq_finish_of_meets_nil {β : Type} {interaction : Interaction ω Unit β}
    (h : interaction.Meets fun runs _ => runs = []) :
    ∃ last world, interaction = .finish last world := by
  cases interaction with
  | finish last world => exact ⟨last, world, rfl⟩
  | run world resume =>
    have hruns := h.drive (fun (_ : Unit) world => ((), (), world)) ()
    exact absurd hruns (List.cons_ne_nil _ _)

namespace Setting

variable {see : Vantage ω ν} {setting : Setting ω} {skipped : String → Bool}
  {backend : Instrumentation ω}

/-- Where what passes between the engine and the instrumentation is not seen, a log changes nothing
    about what is skipped. -/
theorem Skips.logged (hsee : see.instrumentation = false)
    (h : setting.Skips see.world skipped backend) :
    setting.logged.Skips see.logged.world skipped backend.logged where
  instrumentation := congrArg (Option.map Instrumentation.logged) h.instrumentation
  level := h.level
  skips step hstep world := Interaction.meets_logged (h.skips step hstep world.world) _ _
  runs step hstep world := Interaction.meets_logged (h.runs step hstep world.world) _ _
  spares traceName world := Instrumentation.drifts_logged hsee (h.spares traceName world.world)

theorem Skips.backendAt_eq (h : setting.Skips see.world skipped backend) (level : TraceLevel) :
    setting.backendAt level = some backend := by
  rw [backendAt, h.level, if_pos, h.instrumentation]
  cases level <;> simp

/-! ## Steps -/

/-- A skipped step changes nothing that is seen, whatever kind it is run as. -/
theorem Skips.leaves_nothing (h : setting.Skips see.world skipped backend) {step : String}
    (hstep : skipped step = true) (kind : Kind) (handler : Handler ω) (state : State ω) :
    (setting.walkLeaf kind step handler state).1 = .ok ()
      ∧ see.sight.state (setting.walkLeaf kind step handler state).2 = see.sight.state state := by
  have hskips := h.skips step hstep state.world
  have hspares := h.spares ("#" ++ step) state.world
  rw [opened] at hskips hspares
  obtain ⟨last, world, hfinish⟩ := Interaction.eq_finish_of_meets_nil hskips
  rw [hfinish] at hspares
  have hcalled : setting.callStep step handler state = (.ok none, ⟨state.call, world⟩) := by
    rw [callStep, instrumented, h.backendAt_eq]
    dsimp only
    rw [hfinish]
    rfl
  rw [walkLeaf, withAnswer, hcalled]
  exact ⟨rfl, Sight.state_eq_iff.2 ⟨rfl, hspares⟩⟩

/-- What is instrumented under the name of any other step does the same as without
    instrumentation. -/
theorem Skips.agree_instrumented (h : setting.Skips see.world skipped backend) {step : String}
    (hstep : skipped step = false) {plain : Setting ω}
    (hplain : plain.config.instrumentationBackend = none) {α β : Type} {view : α → β}
    {work work' : State ω → α × State ω} (hwork : see.sight.Agree view work work') :
    see.sight.Agree (Option.map view) (setting.instrumented ("#" ++ step) .step work)
      (plain.instrumented ("#" ++ step) .step work') := by
  have hnone : plain.backendAt .step = none := by
    rw [backendAt, hplain, ite_self]
  intro state state' hstate
  obtain ⟨start, hstart, hanswer, hafter⟩ := instrumented_of_runs (h.backendAt_eq .step)
    (h.runs step hstep state.world) (h.spares ("#" ++ step) state.world) work
  obtain ⟨hboth, hworked⟩ := hwork start state' (hstart.trans hstate)
  rw [hanswer, hafter, instrumented, hnone]
  exact ⟨congrArg some hboth, hworked⟩

/-! ## The tree -/

mutual

theorem agree_follow_emptied {plain : Setting ω}
    (hskips : setting.logged.Skips see.logged.world skipped backend.logged)
    (hresembles : Resembles see.logged setting.logged plain.logged)
    (hplain : plain.config.instrumentationBackend = none) :
    (instruction : Instruction (Handler ω)) → (path : Path) → (inherited : Kind) →
    .benchmark ∉ instruction.kinds →
    (∀ leaf ∈ instruction.leaves, leaf.2.2.DependsOn see) →
    see.sight.logged.Agree id (setting.follow instruction path inherited)
      (plain.follow (instruction.emptied skipped) path inherited)
  | .leaf kind name handler, path, inherited, htimed, hleaves => by
    have hkind : kind ≠ .benchmark := fun hkind => htimed (hkind ▸ List.mem_cons_self)
    rw [Instruction.emptied]
    cases hname : skipped name with
    | true =>
      -- there is nothing in the empty block, and nothing is left of the step
      refine agree_noted path (hresembles.agree_around hkind name _ fun state state' hstate => ?_)
      obtain ⟨hresult, hafter⟩ := hskips.leaves_nothing hname (Scope.leafKind kind inherited)
        (handler.logged path) state
      exact ⟨hresult, hafter.trans hstate⟩
    | false =>
      have hhandler := (hleaves (kind, name, handler) List.mem_cons_self).logged path
      have hnone : plain.logged.config.instrumentationBackend = none :=
        congrArg (Option.map Instrumentation.logged) hplain
      exact agree_noted path (hresembles.agree_around hkind name name
        (hresembles.inAccord.agree_walkLeaf (Scope.leafKind kind inherited)
          (fun hwork => hskips.agree_instrumented hname hnone hwork) hhandler))
  | .block kind body, path, inherited, htimed, hleaves => by
    rw [Instruction.kinds, List.mem_cons, not_or] at htimed
    obtain ⟨hkind, hbody⟩ := htimed
    exact agree_noted path (hresembles.agree_around (Ne.symm hkind) _ _
      (agree_followAll_emptied hskips hresembles hplain body path 0 (Scope.inside kind inherited)
        hbody hleaves))
termination_by structural instruction => instruction

theorem agree_followAll_emptied {plain : Setting ω}
    (hskips : setting.logged.Skips see.logged.world skipped backend.logged)
    (hresembles : Resembles see.logged setting.logged plain.logged)
    (hplain : plain.config.instrumentationBackend = none) :
    (body : List (Instruction (Handler ω))) → (path : Path) → (index : Nat) → (scope : Scope) →
    .benchmark ∉ Instruction.kindsAll body →
    (∀ leaf ∈ Instruction.leavesAll body, leaf.2.2.DependsOn see) →
    see.sight.logged.Agree id (setting.followAll body path index scope)
      (plain.followAll (Instruction.emptiedAll skipped body) path index scope)
  | [], _, _, _, _, _ => fun _ _ hstate => ⟨rfl, hstate⟩
  | instruction :: rest, path, index, scope, htimed, hleaves => by
    rw [Instruction.kindsAll, List.mem_append, not_or] at htimed
    obtain ⟨hfirst, hlater⟩ := List.forall_mem_append.1 hleaves
    rw [Instruction.emptiedAll, followAll_cons_eq_goOn, followAll_cons_eq_goOn]
    exact agree_goOn scope
      (agree_follow_emptied hskips hresembles hplain instruction (path ++ [index]) scope.leaf
        htimed.1 hfirst)
      (agree_followAll_emptied hskips hresembles hplain rest path (index + 1) scope htimed.2 hlater)
termination_by structural body => body

end

/-! ## Whole calls -/

/-- Whoever sees all of the information in outcomes and their traces sees all of a call. -/
theorem call_unobserved (view : ω → ν) (call : Call) :
    (Vantage.unobserved view id).sight.call call = call := by
  simp [Vantage.sight, Vantage.call, Vantage.outcome, Vantage.information, Vantage.unobserved,
    Call.mapOutcome]

/-- A step that the instrumentation skips might as well be an empty block of the same kind. Take any
    names and an instrumentation around single steps that never runs the blocks of the steps with
    these names, runs all others at least once, the block of the whole call among them, and leaves
    alone what is seen of the world (`view`); a transaction backend, a reporter and handlers that go
    by nothing but the call and what is seen of the world; and any instructions without benchmarks.
    Then a call raises the same error or returns the same outcome as a call without instrumentation
    of the instructions with empty blocks in place of the steps with these names. Besides the talk
    with the instrumentation, the same happens during both: handlers are entered and return in the
    same order and in the same states, the transaction backend is called and answered in the same
    way, and the same faults are recorded and reported. -/
theorem skipped_steps_pass_for_empty_blocks (setting : Setting ω) (view : ω → ν)
    {skipped : String → Bool} {backend : Instrumentation ω}
    (hskips : setting.Skips view skipped backend)
    (htransaction : ∀ backend, setting.config.transactionBackend = some backend →
      backend.Respects view)
    (hreporter : ∀ fault world world', view world = view world' →
      view (setting.report fault world) = view (setting.report fault world'))
    {instructions : List (Instruction (Handler ω))}
    (htimed : .benchmark ∉ Instruction.kindsAll instructions)
    (hhandlers : ∀ leaf ∈ Instruction.leavesAll instructions,
      leaf.2.2.DependsOn (.unobserved view id))
    (arguments : Arguments) {world world' : ω} (hworld : view world = view world')
    (hcall : (setting.opened backend setting.displayName world).Meets fun runs _ => runs ≠ []) :
    let plain := setting.uninstrumented
    let emptied := Instruction.emptiedAll skipped instructions
    let see := Vantage.unobserved view id
    (setting.perform instructions arguments world).1 = (plain.perform emptied arguments world').1
      ∧ view (setting.perform instructions arguments world).2
        = view (plain.perform emptied arguments world').2
      ∧ see.events (setting.transcript instructions arguments world)
        = see.events (plain.transcript emptied arguments world') := by
  intro plain emptied see
  have hseen : setting.Skips see.world skipped backend := hskips
  have hlogged := hseen.logged rfl
  have hresembles : Resembles see setting plain :=
    { same := rfl
      reports := fun fault {world world'} => hreporter fault world world'
      backend := rfl
      method := rfl
      options := rfl
      respects := htransaction }
  have hwalks := agree_followAll_emptied hlogged hresembles.logged rfl instructions [] 0 .root
    htimed hhandlers
  -- the block of the whole call is run, from a state that looks like the one at the start
  let start : State (Logged ω) := ⟨Call.start arguments, ⟨world, []⟩⟩
  have hruns : (setting.logged.opened backend.logged setting.logged.displayName start.world).Meets
      fun runs _ => runs ≠ [] := Interaction.meets_logged hcall _ _
  obtain ⟨state, hstate, hanswer, hafter⟩ := instrumented_of_runs (hlogged.backendAt_eq .operation)
    hruns (hlogged.spares _ start.world) (setting.followAll instructions [] 0 .root)
  have hstart : see.sight.logged.state start
      = see.sight.logged.state ⟨Call.start arguments, ⟨world', []⟩⟩ :=
    Sight.state_start_eq hworld arguments
  obtain ⟨hresult, hended⟩ := hwalks state _ (hstate.trans hstart)
  have hview : ∀ call call', see.sight.call call = see.sight.call call' →
      id call.outcome = id call'.outcome := by
    intro call call' hseen
    rw [call_unobserved, call_unobserved] at hseen
    exact congrArg Call.outcome hseen
  have hfollowed : (setting.followCall instructions arguments world).1
        = (plain.followCall emptied arguments world').1
      ∧ see.sight.logged.state (setting.followCall instructions arguments world).2
        = see.sight.logged.state (plain.followCall emptied arguments world').2 :=
    ⟨hanswer.trans (congrArg some hresult), hafter.trans hended⟩
  have hvalid : setting.config.validate = plain.config.validate := rfl
  obtain ⟨hends, hworlds, hevents⟩ := perform_alike_of_followCall hview hvalid hworld hfollowed
  refine ⟨?_, hworlds, hevents⟩
  simpa using hends

end Setting

/-! ## A rehearsal -/

namespace Rehearsal

/-- The steps that are left out in rehearsals. -/
def leftOut (step : String) : Bool :=
  ["#cancel", "#pay", "#invite"].contains ("#" ++ step)

/-- An instrumentation that notes each trace, leaves out what is left out in rehearsals and runs all
    else twice. -/
def prompter : Instrumentation (Nat × List String) := fun _ traceName _ world =>
  if ["#cancel", "#pay", "#invite"].contains traceName then
    .finish () (world.1, world.2 ++ ["left out"])
  else .run (world.1, world.2 ++ [traceName]) fun _ after => .run after fun _ last => .finish () last

/-- A setting in which transactions are counted and steps are traced. -/
def stage : Setting (Nat × List String) where
  config :=
    { transactionBackend := some fun _ _ world =>
        .run (world.1 + 1, world.2) fun answer after => .finish answer after
      instrumentationBackend := some prompter
      traceLevel := .step }
  name := some "Play"
  typeName := "Play"
  clock := fun _ _ => ⟨⟨0⟩, none⟩

theorem skips_stage : stage.Skips Prod.fst leftOut prompter where
  instrumentation := rfl
  level := rfl
  skips step hstep world := by
    rw [leftOut] at hstep
    rw [Setting.opened, prompter, if_pos hstep]
    rfl
  runs step hstep world := by
    rw [leftOut] at hstep
    rw [Setting.opened, prompter, if_neg (Bool.eq_false_iff.1 hstep)]
    exact fun _ _ _ _ => List.cons_ne_nil _ _
  spares traceName world := by
    rw [Setting.opened, prompter]
    split
    · rfl
    · exact ⟨rfl, fun _ _ => ⟨rfl, fun _ _ => rfl⟩⟩

/-- A handler that has to do with its call only. -/
def acts (ending : HandlerEnd) (change : Call → Call) : Handler (Nat × List String) :=
  fun state => (ending, ⟨change state.call, state.world⟩)

theorem dependsOn_acts (ending : HandlerEnd) (change : Call → Call) :
    (acts ending change).DependsOn (.unobserved Prod.fst id) := by
  intro state state' hstate
  obtain ⟨hcall, hworld⟩ := Sight.state_eq_iff.1 hstate
  rw [Setting.call_unobserved, Setting.call_unobserved] at hcall
  exact ⟨rfl, Sight.state_eq_iff.2 ⟨congrArg (fun call => _) (congrArg change hcall), hworld⟩⟩

/-- Steps that would finish the call, panic or answer with the wrong thing, before and after one
    that fails. -/
def instructions : List (Instruction (Handler (Nat × List String))) :=
  [.leaf .finishIf "cancel" (acts (.answered (.flag true)) id),
    .leaf .transaction "pay" (acts (.panicked (.text "no money")) id),
    .leaf .operation "invite" (acts (.answered .nothing) id),
    .block .success
      [.leaf .step "fall" (acts (.answered .nothing)
          (·.mapOutcome (·.addErrors [("leg", .string "broken")]))),
        .block .step
          [.leaf .step "cancel" (acts (.answered .nothing) id),
            .leaf .step "bow" (acts (.answered .nothing) id)],
        .leaf .transaction "pay" (acts (.answered .nothing) id)],
    .leaf .step "clap" (acts (.answered .nothing) id)]

/-- Only the fall is rehearsed. The list with the bow stops after the step before it, which is left
    out, and the last transaction is rolled back. -/
theorem rehearses_fall_only :
    let plain := stage.uninstrumented
    let emptied := Instruction.emptiedAll leftOut instructions
    stage.Skips Prod.fst leftOut prompter
      ∧ .benchmark ∉ Instruction.kindsAll instructions
      ∧ (∀ leaf ∈ Instruction.leavesAll instructions, leaf.2.2.DependsOn (.unobserved Prod.fst id))
      ∧ ((stage.opened prompter stage.displayName (0, [])).Meets fun runs _ => runs ≠ [])
      ∧ ∃ outcome, (stage.perform instructions {} (0, [])).1 = .ok outcome
        ∧ (plain.perform emptied {} (0, [])).1 = .ok outcome
        ∧ outcome.isFailure = true ∧ outcome.trace = [.step "fall"]
        ∧ (stage.perform instructions {} (0, [])).2.1 = 2 := by
  intro plain emptied
  have htimed : Kind.benchmark ∉ Instruction.kindsAll instructions := by decide
  have hhandlers : ∀ leaf ∈ Instruction.leavesAll instructions,
      leaf.2.2.DependsOn (.unobserved Prod.fst id) := by
    intro leaf hleaf
    simp only [instructions, Instruction.leavesAll, Instruction.leaves, List.cons_append,
      List.nil_append, List.append_nil, List.mem_cons, List.not_mem_nil, or_false] at hleaf
    rcases hleaf with rfl | rfl | rfl | rfl | rfl | rfl | rfl | rfl <;> exact dependsOn_acts _ _
  have hcall : (stage.opened prompter stage.displayName (0, [])).Meets fun runs _ => runs ≠ [] :=
    fun _ _ _ _ => List.cons_ne_nil _ _
  have htransaction : ∀ backend, stage.config.transactionBackend = some backend →
      backend.Respects Prod.fst := by
    rintro backend ⟨⟩ method options world world' hworld
    exact .run (congrArg (· + 1) hworld) fun answer after after' hafter => .finish answer hafter
  obtain ⟨hends, -, -⟩ := Setting.skipped_steps_pass_for_empty_blocks stage Prod.fst skips_stage
    htransaction (fun _ _ _ hworld => hworld) htimed hhandlers {}
    (rfl : Prod.fst (0, []) = Prod.fst (0, [])) hcall
  exact ⟨skips_stage, htimed, hhandlers, hcall, _, rfl, hends.symm, rfl, rfl, rfl⟩

end Rehearsal

end OperationPipeline

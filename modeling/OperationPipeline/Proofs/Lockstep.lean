import OperationPipeline.Proofs.Vantage

set_option autoImplicit false

/-! # Runs in lockstep

Two settings run in parallel, from a vantage point, if their collaborators do the same as far as is
seen (`Setting.Parallel`). Then they carry out instructions in lockstep: from states that look alike
they come to states that look alike, and what happens on the way looks alike too
(`Setting.Parallel.agree_follow`). The handlers must not depend on what is not seen
(`Handler.DependsOn`). -/

namespace OperationPipeline

variable {ω ν : Type}

/-- Whether what a handler answers and does, as far as it is seen, depends on nothing but what is
    seen. -/
def Handler.DependsOn (see : Vantage ω ν) (handler : Handler ω) : Prop :=
  see.sight.Agree see.sight.ending handler handler

/-- A handler that depends on nothing else does so in a world with a log, too. -/
theorem Handler.DependsOn.logged {see : Vantage ω ν} {handler : Handler ω}
    (h : handler.DependsOn see) (path : Path) :
    (handler.logged path).DependsOn see.logged :=
  Sight.Agree.logged_handler h path

/-! ## Settings -/

/-- Whether two settings are the same as far as is seen, and so are their transaction backends and
    their reporters. Of their clocks and their instrumentation nothing is said. -/
structure Setting.Resembles (see : Vantage ω ν) (setting setting' : Setting ω) : Prop where
  same : see.setting setting = see.setting setting'
  reports (fault : Fault) {world world' : ω} (h : see.world world = see.world world') :
    see.world (setting.report fault world) = see.world (setting'.report fault world')
  backend : setting.config.transactionBackend = setting'.config.transactionBackend
  method : setting.config.transactionMethod = setting'.config.transactionMethod
  options : setting.config.transactionOptions = setting'.config.transactionOptions
  respects : ∀ backend, setting.config.transactionBackend = some backend →
    backend.Respects see.world

/-- Whether two settings resemble each other, and so do their clocks. -/
structure Setting.Matches (see : Vantage ω ν) (setting setting' : Setting ω) : Prop
    extends Setting.Resembles see setting setting' where
  timings {before before' after after' : ω} (hbefore : see.world before = see.world before')
    (hafter : see.world after = see.world after') :
    see.value (setting.clock before after).toJson = see.value (setting'.clock before' after').toJson

/-- Whether two settings match and what is instrumented in them does the same if the work does. -/
structure Setting.Parallel (see : Vantage ω ν) (setting setting' : Setting ω) : Prop
    extends Setting.Matches see setting setting' where
  instrumented {α β : Type} (view : α → β) (traceName : String) (level : TraceLevel)
    {work work' : State ω → α × State ω} (h : see.sight.Agree view work work') :
    see.sight.Agree (Option.map view) (setting.instrumented traceName level work)
      (setting'.instrumented traceName level work')

namespace Setting.Resembles

variable {see : Vantage ω ν} {setting setting' : Setting ω}

/-- Settings that resemble each other in a world do so in that world with a log. -/
theorem logged (h : Resembles see setting setting') :
    Resembles see.logged setting.logged setting'.logged where
  same := congrArg (fun seen : Setting ν => (⟨{ mode := seen.config.mode }, seen.name,
    seen.typeName, fun _ _ => ⟨default, none⟩⟩ : Setting (Logged ν))) h.same
  reports fault world world' hworld := by
    obtain ⟨hworlds, hlogs⟩ := Sight.world_logged_eq_iff.1 hworld
    exact Sight.world_logged_eq_iff.2
      ⟨h.reports fault hworlds, Sight.events_append_congr hlogs rfl⟩
  backend := congrArg (Option.map TransactionBackend.logged) h.backend
  method := h.method
  options := h.options
  respects backend hbackend := by
    obtain ⟨plain, hplain, rfl⟩ := Option.map_eq_some_iff.1 hbackend
    have hplain : plain.Respects see.sight.world := h.respects plain hplain
    exact hplain.logged

theorem name_eq (h : Resembles see setting setting') : setting.name = setting'.name :=
  (congrArg Setting.name h.same : (see.setting setting).name = (see.setting setting').name)

theorem displayName_eq (h : Resembles see setting setting') :
    setting.displayName = setting'.displayName :=
  (congrArg Setting.displayName h.same :
    (see.setting setting).displayName = (see.setting setting').displayName)

/-! ### Steps -/

theorem agree_settle (h : Resembles see setting setting') (step : String) (fault : Fault) :
    see.sight.Agree id (setting.settle step fault) (setting'.settle step fault) := by
  intro state state' hstate
  rw [settle, settle]
  cases fault.authoring? with
  | some error => exact ⟨rfl, hstate⟩
  | none =>
    obtain ⟨hcall, hworld⟩ := Sight.state_eq_iff.1 hstate
    refine ⟨rfl, Sight.state_eq_iff.2 ⟨?_, h.reports fault.recovered hworld⟩⟩
    rw [see.sight_call] at hcall ⊢
    rw [recordFault, recordFault, h.name_eq, see.call_addException, see.call_addException, hcall]

/-- Settings that resemble each other make the same of steps. -/
theorem inAccord (h : Resembles see setting setting') : InAccord see.sight setting setting' where
  traced step state state' hstate := by
    rw [see.state_traced, see.state_traced, h.same, hstate]
  settle := h.agree_settle
  accept kind step answer answer' hanswer := by
    have hshows := see.shows_accept setting' kind step answer'
    have hseen : see.answer answer = see.answer answer' := hanswer
    rw [← h.same, ← hseen] at hshows
    exact (see.shows_accept setting kind step answer).agree hshows

/-! ### Wrappers -/

variable {work work' : State ω → Except EngineError Unit × State ω}

theorem agree_runTransaction (h : Resembles see setting setting')
    (hwork : see.sight.Agree id work work') :
    see.sight.Agree id (setting.runTransaction work) (setting'.runTransaction work') := by
  intro state state' hstate
  obtain ⟨hcall, hworld⟩ := Sight.state_eq_iff.1 hstate
  rw [runTransaction, runTransaction, ← h.backend, ← h.method, ← h.options, h.displayName_eq]
  cases hbackend : setting.config.transactionBackend with
  | none => exact ⟨rfl, hstate⟩
  | some backend =>
    have hmatches := h.respects backend hbackend setting.config.transactionMethod
      setting.config.transactionOptions state.world state'.world hworld
    obtain ⟨hlast, hcalls, hworlds⟩ := hmatches.drive
      (fun _ _ _ _ => agree_transactionBlock hwork) hcall
    dsimp only
    generalize Interaction.drive (transactionBlock work) _ state.call = play
      at hlast hcalls hworlds ⊢
    generalize Interaction.drive (transactionBlock work') _ state'.call = play'
      at hlast hcalls hworlds ⊢
    obtain ⟨last, call, world⟩ := play
    obtain ⟨last', call', world'⟩ := play'
    obtain rfl : last = last' := hlast
    have hafter : see.sight.state ⟨call, world⟩ = see.sight.state ⟨call', world'⟩ :=
      Sight.state_eq_iff.2 ⟨hcalls, hworlds⟩
    cases last with
    | ok u => exact ⟨rfl, hafter⟩
    | error abort =>
      dsimp only
      cases abort.fault? with
      | none => exact ⟨rfl, hafter⟩
      | some fault => exact h.agree_settle transactionStep fault _ _ hafter

/-- Where nothing is timed, labels do not matter. -/
theorem agree_around (h : Resembles see setting setting') {kind : Kind} (hkind : kind ≠ .benchmark)
    (label label' : String) (hwork : see.sight.Agree id work work') :
    see.sight.Agree id (setting.around kind label work) (setting'.around kind label' work') := by
  cases kind with
  | transaction => exact h.agree_runTransaction hwork
  | benchmark => exact absurd rfl hkind
  | _ => exact hwork

end Setting.Resembles

namespace Setting

/-- Settings that match in a world match in that world with a log. -/
theorem Matches.logged {see : Vantage ω ν} {setting setting' : Setting ω}
    (h : Matches see setting setting') : Matches see.logged setting.logged setting'.logged where
  toResembles := h.toResembles.logged
  timings hbefore hafter := h.timings (Sight.world_logged_eq_iff.1 hbefore).1
    (Sight.world_logged_eq_iff.1 hafter).1

end Setting

namespace Setting.Parallel

variable {see : Vantage ω ν} {setting setting' : Setting ω}

/-- Settings in parallel run in step. -/
theorem inStep (h : Parallel see setting setting') : InStep see.sight setting setting' where
  toInAccord := h.inAccord
  timed label before before' after after' hbefore hafter := by
    obtain ⟨hcall, hworld⟩ := Sight.state_eq_iff.1 hafter
    have htiming := h.timings hbefore hworld
    rw [see.sight_call] at hcall ⊢
    simp only [see.call_addInformation, Vantage.information, List.map_cons, htiming, hcall,
      List.map_nil]
  instrumented := h.instrumented

theorem agree_around (h : Parallel see setting setting') (kind : Kind) (label : String)
    {work work' : State ω → Except EngineError Unit × State ω}
    (hwork : see.sight.Agree id work work') :
    see.sight.Agree id (setting.around kind label work) (setting'.around kind label work') := by
  by_cases hkind : kind = .benchmark
  · subst hkind
    exact h.inStep.agree_runBenchmark label hwork
  · exact h.toResembles.agree_around hkind label label hwork

/-! ### The tree -/

mutual

theorem agree_follow (h : Parallel see.logged setting.logged setting'.logged) :
    (instruction : Instruction (Handler ω)) → (path : Path) → (inherited : Kind) →
    (∀ leaf ∈ instruction.leaves, leaf.2.2.DependsOn see) →
    see.sight.logged.Agree id (setting.follow instruction path inherited)
      (setting'.follow instruction path inherited)
  | .leaf kind name handler, path, inherited, hleaves =>
    have hhandler := (hleaves (kind, name, handler) List.mem_cons_self).logged path
    agree_noted path (h.agree_around kind name
      (h.inStep.agree_walkLeaf (Scope.leafKind kind inherited) name hhandler))
  | .block kind body, path, inherited, hleaves =>
    agree_noted path (h.agree_around kind _
      (agree_followAll h body path 0 (Scope.inside kind inherited) hleaves))
termination_by structural instruction => instruction

theorem agree_followAll (h : Parallel see.logged setting.logged setting'.logged) :
    (body : List (Instruction (Handler ω))) → (path : Path) → (index : Nat) → (scope : Scope) →
    (∀ leaf ∈ Instruction.leavesAll body, leaf.2.2.DependsOn see) →
    see.sight.logged.Agree id (setting.followAll body path index scope)
      (setting'.followAll body path index scope)
  | [], _, _, _, _ => fun _ _ hstate => ⟨rfl, hstate⟩
  | instruction :: rest, path, index, scope, hleaves => by
    obtain ⟨hfirst, hlater⟩ := List.forall_mem_append.1 hleaves
    rw [followAll_cons_eq_goOn, followAll_cons_eq_goOn]
    exact agree_goOn scope (agree_follow h instruction (path ++ [index]) scope.leaf hfirst)
      (agree_followAll h rest path (index + 1) scope hlater)
termination_by structural body => body

end

/-! ### Whole calls -/

/-- What is seen of how a call ends and of what happens during it is the same in both settings. -/
theorem perform_alike (h : Parallel see.logged setting.logged setting'.logged)
    (hvalid : setting.config.validate = setting'.config.validate)
    {instructions : List (Instruction (Handler ω))}
    (hleaves : ∀ leaf ∈ Instruction.leavesAll instructions, leaf.2.2.DependsOn see)
    (arguments : Arguments) {world world' : ω} (hworld : see.world world = see.world world') :
    (setting.perform instructions arguments world).1.map see.outcome
        = (setting'.perform instructions arguments world').1.map see.outcome
      ∧ see.world (setting.perform instructions arguments world).2
        = see.world (setting'.perform instructions arguments world').2
      ∧ see.events (setting.transcript instructions arguments world)
        = see.events (setting'.transcript instructions arguments world') := by
  have hview : ∀ call call', see.sight.call call = see.sight.call call' →
      see.outcome call.outcome = see.outcome call'.outcome :=
    fun _ _ hcall => congrArg Call.outcome hcall
  have hstep := h.inStep
  rw [see.sight_logged] at hstep
  exact hstep.perform_alike hview h.displayName_eq hvalid
    (h.agree_followAll instructions [] 0 .root hleaves) arguments hworld

end Setting.Parallel

end OperationPipeline

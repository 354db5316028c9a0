import OperationPipeline.Proofs.Transcript

set_option autoImplicit false

/-! # What becomes of the world

The engine does nothing to the world of its own accord. Hence, if every handler and every
collaborator takes the world along some relation that holds of one step after another, so does
everything that is carried out. `Setting.Carries.drifts_perform` says so of whole calls, and
`Setting.Carries.drifts_followCall` of a world with a log, where the relation can tell what happened
in between. -/

namespace OperationPipeline

variable {ω : Type}

/-! ## Drift -/

/-- Whether some work takes the world along a relation. -/
def Drifts {α : Type} (along : ω → ω → Prop) (work : State ω → α × State ω) : Prop :=
  ∀ state, along state.world (work state).2.world

/-- Whether an interaction takes the world along a relation, from the world that it is given or that
    a run of its block leaves to the next run or to its end. -/
def Interaction.Drifts {α β : Type} (along : ω → ω → Prop) : Interaction ω α β → ω → Prop
  | .finish _ world, before => along before world
  | .run world resume, before =>
    along before world ∧ ∀ answer after, (resume answer after).Drifts along after
termination_by structural interaction => interaction

/-- Whether the collaborators of a setting take the world along a relation that holds of nothing and
    of one step after another. -/
structure Setting.Carries (setting : Setting ω) (along : ω → ω → Prop) : Prop where
  refl (world : ω) : along world world
  trans {before mid after : ω} (h : along before mid) (hlater : along mid after) :
    along before after
  report (fault : Fault) (world : ω) : along world (setting.report fault world)
  transaction : ∀ backend, setting.config.transactionBackend = some backend →
    ∀ method options world, (backend method options world).Drifts along world
  instrumentation : ∀ backend, setting.config.instrumentationBackend = some backend →
    ∀ method traceName options world, (backend method traceName options world).Drifts along world

namespace Setting.Carries

variable {setting : Setting ω} {along : ω → ω → Prop}

theorem drive (h : setting.Carries along) {α β σ : Type} {interaction : Interaction ω α β}
    {before : ω} (hinteraction : interaction.Drifts along before) {block : σ → ω → α × σ × ω}
    (hblock : ∀ state world, along world (block state world).2.2) (state : σ) :
    along before (interaction.drive block state).2.2 := by
  induction interaction generalizing before state with
  | finish answer world => exact hinteraction
  | run world resume ih =>
    obtain ⟨hworld, hresume⟩ := hinteraction
    have hrun := h.trans hworld (hblock state world)
    exact h.trans hrun (ih _ _ (hresume _ _) _)

/-! ### Steps -/

theorem drifts_instrumented (h : setting.Carries along) {α : Type} (traceName : String)
    (level : TraceLevel) {work : State ω → α × State ω} (hwork : Drifts along work) :
    Drifts along (setting.instrumented traceName level work) := by
  intro state
  simp only [instrumented]
  cases hbackend : setting.backendAt level with
  | none => exact hwork state
  | some backend =>
    have hsome := instrumentationBackend_of_backendAt hbackend
    refine h.drive (h.instrumentation backend hsome _ _ _ state.world) ?_ _
    rintro ⟨answer, call⟩ world
    cases answer with
    | some answer => exact h.refl world
    | none => exact hwork ⟨call, world⟩

theorem drifts_settle (h : setting.Carries along) (step : String) (fault : Fault) :
    Drifts along (setting.settle step fault) := by
  intro state
  rw [settle]
  cases fault.authoring? with
  | some error => exact h.refl _
  | none => exact h.report _ _

theorem drifts_callStep (h : setting.Carries along) (step : String) {handler : Handler ω}
    (hhandler : Drifts along handler) :
    Drifts along (setting.callStep step handler) := by
  have hwork : Drifts along fun state => handler (setting.traced step state) := by
    intro state
    have htraced : (setting.traced step state).world = state.world := by
      rw [traced]
      split <;> rfl
    rw [← htraced]
    exact hhandler _
  intro state
  have hcalled := h.drifts_instrumented ("#" ++ step) .step hwork state
  simp only [callStep]
  generalize setting.instrumented ("#" ++ step) .step _ state = ran at hcalled ⊢
  obtain ⟨ending, after⟩ := ran
  cases ending with
  | none => exact hcalled
  | some ending =>
    dsimp only
    cases ending.result with
    | ok answer => exact hcalled
    | error fault =>
      have hsettled := h.drifts_settle step fault after
      dsimp only
      generalize setting.settle step fault after = settled at hsettled ⊢
      obtain ⟨result, last⟩ := settled
      cases result <;> exact h.trans hcalled hsettled

theorem drifts_walkLeaf (h : setting.Carries along) (kind : Kind) (step : String)
    {handler : Handler ω} (hhandler : Drifts along handler) :
    Drifts along (setting.walkLeaf kind step handler) := by
  intro state
  have hcalled := h.drifts_callStep step hhandler state
  rw [walkLeaf, withAnswer]
  generalize setting.callStep step handler state = called at hcalled ⊢
  obtain ⟨result, after⟩ := called
  cases result with
  | error error => exact hcalled
  | ok answer =>
    cases answer with
    | none => exact hcalled
    | some answer =>
      -- taking an answer leaves the world alone
      have haccept := accept_congr setting setting rfl kind step answer after.call after.world
        after.world
      rw [Prod.ext_iff] at haccept
      exact (congrArg (along state.world) (congrArg State.world haccept.2)).mpr hcalled

/-! ### Wrappers -/

variable {work : State ω → Except EngineError Unit × State ω}

theorem drifts_runBenchmark (setting : Setting ω) (label : String) (hwork : Drifts along work) :
    Drifts along (setting.runBenchmark label work) := by
  intro state
  have hworked := hwork state
  rw [runBenchmark]
  generalize work state = ended at hworked ⊢
  obtain ⟨result, after⟩ := ended
  cases result <;> exact hworked

theorem drifts_runTransaction (h : setting.Carries along) (hwork : Drifts along work) :
    Drifts along (setting.runTransaction work) := by
  intro state
  rw [runTransaction]
  cases hbackend : setting.config.transactionBackend with
  | none => exact h.refl _
  | some backend =>
    have hblock : ∀ call world, along world (transactionBlock work call world).2.2 :=
      fun call world => hwork ⟨call, world⟩
    have hplayed := h.drive (h.transaction backend hbackend setting.config.transactionMethod
      setting.config.transactionOptions state.world) hblock state.call
    dsimp only
    generalize Interaction.drive (transactionBlock work) _ state.call = play at hplayed ⊢
    obtain ⟨last, call, world⟩ := play
    cases last with
    | ok u => exact hplayed
    | error abort =>
      dsimp only
      cases abort.fault? with
      | none => exact hplayed
      | some fault => exact h.trans hplayed (h.drifts_settle transactionStep fault ⟨call, world⟩)

theorem drifts_around (h : setting.Carries along) (kind : Kind) (label : String)
    (hwork : Drifts along work) :
    Drifts along (setting.around kind label work) := by
  cases kind with
  | transaction => exact h.drifts_runTransaction hwork
  | benchmark => exact drifts_runBenchmark setting label hwork
  | _ => exact hwork

end Setting.Carries

/-! ## Worlds with a log -/

section Logged

variable {α β : Type} {along : ω → ω → Prop}

/-- An interaction that takes the world along a relation does so from an earlier world too. -/
theorem Interaction.Drifts.from_earlier {interaction : Interaction ω α β} {earlier before : ω}
    (h : interaction.Drifts along before) (hearlier : along earlier before)
    (htrans : ∀ {before mid after}, along before mid → along mid after → along before after) :
    interaction.Drifts along earlier := by
  cases interaction with
  | finish answer world => exact htrans hearlier h
  | run world resume => exact ⟨htrans hearlier h.1, h.2⟩

/-- An interaction keeps a log along a relation on logs that allows for what the interaction does to
    the world and for the notes that are made of it. -/
theorem Interaction.Drifts.logged {interaction : Interaction ω α β} {before : ω}
    (h : interaction.Drifts along before) (alongLog : Logged ω → Logged ω → Prop)
    (note : α → Event)
    (hlift : ∀ {before after : ω} (log : List Event), along before after →
      alongLog ⟨before, log⟩ ⟨after, log⟩)
    (hnote : ∀ answer world, alongLog world ⟨world.world, world.log ++ [note answer]⟩)
    (htrans : ∀ {before mid after}, alongLog before mid → alongLog mid after →
      alongLog before after) (log : List Event) :
    (interaction.logged note log).Drifts alongLog ⟨before, log⟩ := by
  induction interaction generalizing before log with
  | finish answer world => exact hlift log h
  | run world resume ih =>
    obtain ⟨hworld, hresume⟩ := h
    refine ⟨hlift log hworld, fun answer after => ?_⟩
    have hlater := ih answer after.world (hresume answer after.world) (after.log ++ [note answer])
    exact hlater.from_earlier (hnote answer after) htrans

end Logged

namespace Setting.Carries

section Following

variable {setting : Setting ω} {along : Logged ω → Logged ω → Prop}

theorem drifts_noted (h : setting.logged.Carries along)
    (hnote : ∀ event (world : Logged ω), (∀ fault, event ≠ .recorded fault) →
      along world ⟨world.world, world.log ++ [event]⟩) (path : Path)
    {work : State (Logged ω) → Except EngineError Unit × State (Logged ω)}
    (hwork : Drifts along work) : Drifts along (noted path work) := by
  intro state
  have hbegan := hnote (.began path state.call) state.world nofun
  have hworked := h.trans hbegan (hwork (state.note (.began path state.call)))
  exact h.trans hworked (hnote _ _ nofun)

mutual

theorem drifts_follow (h : setting.logged.Carries along)
    (hnote : ∀ event (world : Logged ω), (∀ fault, event ≠ .recorded fault) →
      along world ⟨world.world, world.log ++ [event]⟩) :
    (instruction : Instruction (Handler ω)) → (path : Path) → (inherited : Kind) →
    (∀ leaf ∈ instruction.leaves, ∀ path, Drifts along (leaf.2.2.logged path)) →
    Drifts along (setting.follow instruction path inherited)
  | .leaf kind name handler, path, inherited, hleaves =>
    have hhandler := hleaves (kind, name, handler) List.mem_cons_self path
    h.drifts_noted hnote path (h.drifts_around kind name
      (h.drifts_walkLeaf (Scope.leafKind kind inherited) name hhandler))
  | .block kind body, path, inherited, hleaves =>
    h.drifts_noted hnote path (h.drifts_around kind _
      (drifts_followAll h hnote body path 0 (Scope.inside kind inherited) hleaves))
termination_by structural instruction => instruction

theorem drifts_followAll (h : setting.logged.Carries along)
    (hnote : ∀ event (world : Logged ω), (∀ fault, event ≠ .recorded fault) →
      along world ⟨world.world, world.log ++ [event]⟩) :
    (body : List (Instruction (Handler ω))) → (path : Path) → (index : Nat) → (scope : Scope) →
    (∀ leaf ∈ Instruction.leavesAll body, ∀ path, Drifts along (leaf.2.2.logged path)) →
    Drifts along (setting.followAll body path index scope)
  | [], _, _, _, _ => fun state => h.refl state.world
  | instruction :: rest, path, index, scope, hleaves => by
    intro state
    obtain ⟨hfirst, hlater⟩ := List.forall_mem_append.1 hleaves
    have hfollowed := drifts_follow h hnote instruction (path ++ [index]) scope.leaf hfirst state
    rw [followAll]
    generalize setting.follow instruction (path ++ [index]) scope.leaf state = ended
      at hfollowed ⊢
    obtain ⟨result, after⟩ := ended
    cases result with
    | error error => exact hfollowed
    | ok u =>
      dsimp only
      split
      · exact hfollowed
      · have hrest := drifts_followAll h hnote rest path (index + 1) scope hlater after
        exact h.trans hfollowed hrest
termination_by structural body => body

end

/-- The walk of a call keeps a log along a relation if its collaborators, its handlers and all notes
    but those of faults do. -/
theorem drifts_followCall (h : setting.logged.Carries along)
    (hnote : ∀ event (world : Logged ω), (∀ fault, event ≠ .recorded fault) →
      along world ⟨world.world, world.log ++ [event]⟩)
    {instructions : List (Instruction (Handler ω))}
    (hleaves : ∀ leaf ∈ Instruction.leavesAll instructions, ∀ path,
      Drifts along (leaf.2.2.logged path)) (arguments : Arguments) (world : ω) :
    along ⟨world, []⟩ (setting.followCall instructions arguments world).2.world :=
  h.drifts_instrumented setting.displayName .operation
    (h.drifts_followAll hnote instructions [] 0 .root hleaves)
    ⟨Call.start arguments, ⟨world, []⟩⟩

end Following

/-! ## Whole calls -/

variable {setting : Setting ω} {along : ω → ω → Prop}

/-- An interaction with a log takes the world along as the interaction does. -/
theorem drifts_logged (h : setting.Carries along) {α β : Type} {interaction : Interaction ω α β}
    {before : Logged ω} (hinteraction : interaction.Drifts along before.world) (note : α → Event)
    (log : List Event) :
    (interaction.logged note log).Drifts (fun before after => along before.world after.world)
      before := by
  have hlogged := hinteraction.logged (fun before after => along before.world after.world) note
    (fun _ => id) (fun _ world => h.refl world.world) h.trans log
  exact hlogged.from_earlier (h.refl before.world) h.trans

/-- Where a log may be kept in any way, collaborators take it along with the world. -/
theorem logged (h : setting.Carries along) :
    setting.logged.Carries fun before after => along before.world after.world where
  refl world := h.refl world.world
  trans := h.trans
  report fault world := h.report fault world.world
  transaction backend hbackend method options world := by
    obtain ⟨plain, hplain, rfl⟩ := Option.map_eq_some_iff.1 hbackend
    exact h.drifts_logged (h.transaction plain hplain method options world.world) _ _
  instrumentation backend hbackend method traceName options world := by
    obtain ⟨plain, hplain, rfl⟩ := Option.map_eq_some_iff.1 hbackend
    exact h.drifts_logged (h.instrumentation plain hplain method traceName options world.world) _ _

/-- A call takes the world along a relation if its collaborators and its handlers do. -/
theorem drifts_perform (h : setting.Carries along) {instructions : List (Instruction (Handler ω))}
    (hleaves : ∀ leaf ∈ Instruction.leavesAll instructions, Drifts along leaf.2.2)
    (arguments : Arguments) (world : ω) :
    along world (setting.perform instructions arguments world).2 := by
  cases hvalid : setting.config.validate with
  | error error =>
    rw [perform, hvalid]
    exact h.refl world
  | ok u =>
    have hfollowed := h.logged.drifts_followCall (fun _ after _ => h.refl after.world)
      (fun leaf hleaf path state => hleaves leaf hleaf state.plain) arguments world
    rw [plain_followCall setting instructions arguments world hvalid]
    generalize setting.followCall instructions arguments world = ended at hfollowed ⊢
    obtain ⟨result, after⟩ := ended
    cases result with
    | none => exact hfollowed
    | some result => cases result <;> exact hfollowed

end Setting.Carries

end OperationPipeline

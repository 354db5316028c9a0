import OperationPipeline.Proofs.Drift
import OperationPipeline.Proofs.Lockstep

set_option autoImplicit false

/-! # Observers

Reporters and instrumentation only look on: a reporter is handed each fault, and an instrumentation
is put around work. As long as they leave the rest of the world alone and the instrumentation runs
what it is put around (`Observers.Discreet`), nobody else notices them
(`Setting.observers_unnoticed`): a call ends in the same way whoever looks on, its handlers are
entered in the same states and its transaction backend is driven in the same way.

The exception is a blank name for the method of the instrumentation, for which a call is refused
even if there is no instrumentation (`Setting.blank_method_noticed`). -/

namespace OperationPipeline

variable {ω ν : Type}

/-- The collaborators of a call that look on. -/
structure Observers (ω : Type) where
  reporter : Option (Reporter ω) := none
  instrumentation : Option (Instrumentation ω) := none
  method : String := "instrument"
  options : Entries Json := []
  level : TraceLevel := .operation

/-- The setting with other observers. -/
def Setting.observedBy (setting : Setting ω) (observers : Observers ω) : Setting ω :=
  { setting with
    config := { setting.config with
      reporter := observers.reporter
      instrumentationBackend := observers.instrumentation
      instrumentationMethod := observers.method
      instrumentationOptions := observers.options
      traceLevel := observers.level } }

/-- The vantage point of those who are not told what passes between the engine and the
    instrumentation. -/
def Vantage.unobserved (view : ω → ν) (value : Json → Json) : Vantage ω ν where
  world := view
  value := value
  trace := true
  instrumentation := false

/-! ## Discretion -/

/-- Whether an instrumentation runs its block, once or more often, and leaves alone what is seen of
    the world. -/
structure Instrumentation.Discreet (view : ω → ν) (backend : Instrumentation ω) : Prop where
  runs : backend.Runs
  spares (method traceName : String) (options : Entries Json) (world : ω) :
    (backend method traceName options world).Drifts (fun before after => view after = view before)
      world

/-- Whether nothing that is seen of the world shows that there are observers. -/
structure Observers.Discreet (view : ω → ν) (observers : Observers ω) : Prop where
  reporter : ∀ reporter, observers.reporter = some reporter →
    ∀ fault world, view (reporter fault world).2 = view world
  instrumentation : ∀ backend, observers.instrumentation = some backend → backend.Discreet view

/-- Where what passes between the engine and the instrumentation is not seen, a log of it is not
    seen either. -/
theorem Instrumentation.drifts_logged {see : Vantage ω ν} (hsee : see.instrumentation = false)
    {backend : Instrumentation ω} {method traceName : String} {options : Entries Json}
    {world : Logged ω}
    (h : (backend method traceName options world.world).Drifts
      (fun before after => see.world after = see.world before) world.world) :
    (backend.logged method traceName options world).Drifts
      (fun before after => see.logged.world after = see.logged.world before) world := by
  have hran : see.sight.event .traceRan = none := by
    show see.event .traceRan = none
    rw [Vantage.event, hsee]
    rfl
  have hopened : see.sight.event (.traceOpened method traceName options) = none := by
    show see.event (.traceOpened method traceName options) = none
    rw [Vantage.event, hsee]
    rfl
  have hplain : (backend method traceName options world.world).Drifts
      (fun before after => see.sight.world after = see.sight.world before) world.world := h
  exact hplain.logged_unseen hopened fun _ => hran

theorem Instrumentation.Discreet.logged {see : Vantage ω ν} (hsee : see.instrumentation = false)
    {backend : Instrumentation ω} (h : backend.Discreet see.world) :
    backend.logged.Discreet see.logged.world where
  runs method traceName options world :=
    Interaction.meets_logged (h.runs method traceName options world.world) _ _
  spares method traceName options world :=
    drifts_logged hsee (h.spares method traceName options world.world)

namespace Setting

/-! ## Work that is looked on -/

/-- Once its work is done, the block of an instrumentation does nothing more, so all that happens to
    the world is what the instrumentation does itself. -/
theorem drive_firstRun_of_drifts {α : Type} {view : ω → ν} {interaction : Interaction ω Unit Unit}
    {before : ω} (h : interaction.Drifts (fun before after => view after = view before) before)
    (work : State ω → α × State ω) (answer : α) (call : Call) :
    ∃ world, view world = view before
      ∧ interaction.drive (firstRun work) (some answer, call)
        = ((), (some answer, call), world) := by
  induction interaction generalizing before with
  | finish last world => exact ⟨world, h, rfl⟩
  | run world resume ih =>
    obtain ⟨hworld, hresume⟩ := h
    obtain ⟨last, hlast, hdrive⟩ := ih () world (hresume () world)
    exact ⟨last, hlast.trans hworld, hdrive⟩

/-- What an instrumentation of a setting does with a block under the given name. -/
def opened (setting : Setting ω) (backend : Instrumentation ω) (traceName : String) (world : ω) :
    Interaction ω Unit Unit :=
  backend setting.config.instrumentationMethod traceName setting.config.instrumentationOptions world

/-- Inside an instrumentation that runs its block and leaves alone what is seen of the world, work is
    done from a state that looks like the one before and leaves one that looks like the one after. -/
theorem instrumented_of_runs {see : Vantage ω ν} {setting : Setting ω} {level : TraceLevel}
    {backend : Instrumentation ω} (hbackend : setting.backendAt level = some backend)
    {traceName : String} {state : State ω}
    (hruns : (setting.opened backend traceName state.world).Meets fun runs _ => runs ≠ [])
    (hspares : (setting.opened backend traceName state.world).Drifts
      (fun before after => see.world after = see.world before) state.world)
    {α : Type} (work : State ω → α × State ω) :
    ∃ start, see.sight.state start = see.sight.state state
      ∧ (setting.instrumented traceName level work state).1 = some (work start).1
      ∧ see.sight.state (setting.instrumented traceName level work state).2
        = see.sight.state (work start).2 := by
  rw [opened] at hruns hspares
  simp only [instrumented, hbackend]
  generalize backend _ traceName _ state.world = interaction at hruns hspares ⊢
  cases interaction with
  | finish last world => exact absurd rfl hruns
  | run world resume =>
    obtain ⟨hworld, hresume⟩ := hspares
    obtain ⟨last, hlast, hdrive⟩ := drive_firstRun_of_drifts
      (hresume () (work ⟨state.call, world⟩).2.world) work (work ⟨state.call, world⟩).1
      (work ⟨state.call, world⟩).2.call
    have hrun : (Interaction.run world resume).drive (firstRun work) (none, state.call)
        = ((), (some (work ⟨state.call, world⟩).1, (work ⟨state.call, world⟩).2.call), last) :=
      hdrive
    rw [hrun]
    exact ⟨⟨state.call, world⟩, Sight.state_eq_iff.2 ⟨rfl, hworld⟩, rfl,
      Sight.state_eq_iff.2 ⟨rfl, hlast⟩⟩

theorem instrumented_of_discreet {see : Vantage ω ν} {setting : Setting ω} {level : TraceLevel}
    (h : ∀ backend, setting.backendAt level = some backend → backend.Discreet see.world)
    {α : Type} (traceName : String) (work : State ω → α × State ω) (state : State ω) :
    ∃ start, see.sight.state start = see.sight.state state
      ∧ (setting.instrumented traceName level work state).1 = some (work start).1
      ∧ see.sight.state (setting.instrumented traceName level work state).2
        = see.sight.state (work start).2 := by
  cases hbackend : setting.backendAt level with
  | none =>
    simp only [instrumented, hbackend]
    exact ⟨state, rfl, rfl, rfl⟩
  | some backend =>
    obtain ⟨hruns, hspares⟩ := h backend hbackend
    exact instrumented_of_runs hbackend (hruns _ _ _ _) (hspares _ _ _ _) work

/-! ## Settings that are looked on -/

theorem report_of_discreet {view : ω → ν} {observers : Observers ω} (h : observers.Discreet view)
    (setting : Setting ω) (fault : Fault) (world : ω) :
    view ((setting.observedBy observers).report fault world) = view world := by
  rw [report, observedBy]
  dsimp only
  cases hreporter : observers.reporter with
  | none => rfl
  | some reporter => exact h.reporter reporter hreporter fault world

theorem backendAt_of_discreet {view : ω → ν} {observers : Observers ω}
    (h : observers.Discreet view) (setting : Setting ω) (level : TraceLevel)
    (backend : Instrumentation ω)
    (hbackend : (setting.observedBy observers).backendAt level = some backend) :
    backend.Discreet view := by
  exact h.instrumentation backend (instrumentationBackend_of_backendAt hbackend)

theorem validate_observedBy (setting : Setting ω) (observers : Observers ω) :
    (setting.observedBy observers).config.validate
      = if Text.isBlank setting.config.transactionMethod then
          .error (Config.blankMethod "transaction_method")
        else if Text.isBlank observers.method then
          .error (Config.blankMethod "instrumentation_method")
        else .ok () := rfl

/-- Whoever looks on, a setting is the same as far as is seen. -/
theorem parallel_observedBy {see : Vantage ω ν} (hsee : see.instrumentation = false)
    (setting : Setting ω) {first second : Observers ω} (hfirst : first.Discreet see.world)
    (hsecond : second.Discreet see.world)
    (hbackend : ∀ backend, setting.config.transactionBackend = some backend →
      backend.Respects see.world)
    (hclock : ∀ before before' after after', see.world before = see.world before' →
      see.world after = see.world after' →
      see.value (setting.clock before after).toJson
        = see.value (setting.clock before' after').toJson) :
    Parallel see.logged (setting.observedBy first).logged (setting.observedBy second).logged where
  toMatches := Matches.logged
    { same := rfl
      reports := fun fault world world' hworld => by
        rw [report_of_discreet hfirst, report_of_discreet hsecond, hworld]
      timings := hclock _ _ _ _
      backend := rfl
      method := rfl
      options := rfl
      respects := hbackend }
  instrumented view traceName level work work' hwork state state' hstate := by
    have hdiscreet : ∀ {observers : Observers ω}, observers.Discreet see.world →
        ∀ backend, (setting.observedBy observers).logged.backendAt level = some backend →
          backend.Discreet see.logged.world := by
      intro observers hobservers backend hlogged
      rw [backendAt_logged, Option.map_eq_some_iff] at hlogged
      obtain ⟨plain, hplain, rfl⟩ := hlogged
      exact (backendAt_of_discreet hobservers setting level plain hplain).logged hsee
    obtain ⟨start, hstart, hanswer, hafter⟩ :=
      instrumented_of_discreet (hdiscreet hfirst) traceName work state
    obtain ⟨start', hstart', hanswer', hafter'⟩ :=
      instrumented_of_discreet (hdiscreet hsecond) traceName work' state'
    obtain ⟨hboth, hworked⟩ := hwork start start' (hstart.trans (hstate.trans hstart'.symm))
    rw [hanswer, hanswer', hafter, hafter']
    exact ⟨congrArg some hboth, hworked⟩

/-! ## Whole calls -/

/-- Observers do not influence what a call does. Take two settings that differ in nothing but their
    observers, which leave alone what is seen of the world and run the work that they are put
    around, and whose methods are both blank or both not. As far as is seen by handlers, by the
    transaction backend and by the clock (`view`, and `value` for the information in outcomes, which
    may leave out the durations of benchmarks), both calls end in the same way, with outcomes that
    are the same in all five fields, and the same happens during both: handlers are entered and
    return in the same order and in the same states, the transaction backend is called and answered
    in the same way, and the same faults are recorded. -/
theorem observers_unnoticed (setting : Setting ω) (view : ω → ν) (value : Json → Json)
    {first second : Observers ω} (hfirst : first.Discreet view) (hsecond : second.Discreet view)
    (hmethods : Text.isBlank first.method = Text.isBlank second.method)
    (hbackend : ∀ backend, setting.config.transactionBackend = some backend →
      backend.Respects view)
    (hclock : ∀ before before' after after', view before = view before' →
      view after = view after' →
      value (setting.clock before after).toJson = value (setting.clock before' after').toJson)
    {instructions : List (Instruction (Handler ω))}
    (hhandlers : ∀ leaf ∈ Instruction.leavesAll instructions,
      leaf.2.2.DependsOn (.unobserved view value))
    (arguments : Arguments) {world world' : ω} (hworld : view world = view world') :
    let see := Vantage.unobserved view value
    let one := setting.observedBy first
    let other := setting.observedBy second
    (one.perform instructions arguments world).1.map see.outcome
        = (other.perform instructions arguments world').1.map see.outcome
      ∧ view (one.perform instructions arguments world).2
        = view (other.perform instructions arguments world').2
      ∧ see.events (one.transcript instructions arguments world)
        = see.events (other.transcript instructions arguments world') := by
  intro see one other
  have hparallel : Parallel see.logged one.logged other.logged :=
    parallel_observedBy rfl setting hfirst hsecond hbackend hclock
  have hvalid : one.config.validate = other.config.validate := by
    rw [validate_observedBy, validate_observedBy, hmethods]
  exact hparallel.perform_alike hvalid hhandlers arguments hworld

/-- A setting in a world of transactions, which are counted, and of notes. Time is measured in
    notes. -/
def workshop : Setting (Nat × List String) where
  config :=
    { transactionBackend := some fun _ _ world =>
        .run (world.1 + 1, world.2) fun answer after => .finish answer after }
  name := some "Workshop"
  typeName := "Workshop"
  clock := fun before after => ⟨⟨(after.2.length - before.2.length).toUInt64⟩, none⟩

/-- Observers that take notes, with an instrumentation that runs its block twice. -/
def notetakers : Observers (Nat × List String) where
  reporter := some fun fault world => (.returned, (world.1, world.2 ++ [fault.message]))
  instrumentation := some fun _ traceName _ world =>
    .run (world.1, world.2 ++ [traceName]) fun _ after => .run after fun _ last => .finish () last
  level := .step

/-- A reporter that panics, and no instrumentation. -/
def alarmed : Observers (Nat × List String) where
  reporter := some fun _ world => (.panicked, (world.1, world.2 ++ ["alarm"]))

/-- A timed transaction whose only step panics. -/
def timedPanic : List (Instruction (Handler (Nat × List String))) :=
  [.block .benchmark [.block .transaction [.leaf .step "saw" fun state =>
    (.panicked (.text "blade stuck"), state)]]]

/-- Whoever looks on, the timed transaction comes out the same but for its duration. -/
theorem notes_unnoticed :
    let see : Vantage (Nat × List String) Nat := .unobserved Prod.fst Json.untimed
    notetakers.Discreet Prod.fst ∧ alarmed.Discreet Prod.fst
      ∧ Text.isBlank notetakers.method = Text.isBlank alarmed.method
      ∧ (∀ leaf ∈ Instruction.leavesAll timedPanic, leaf.2.2.DependsOn see)
      ∧ (((workshop.observedBy notetakers).perform timedPanic {} (0, [])).1.map see.outcome
        = ((workshop.observedBy alarmed).perform timedPanic {} (0, ["swept"])).1.map
            see.outcome) := by
  intro see
  have hnotetakers : notetakers.Discreet Prod.fst := by
    refine ⟨?_, ?_⟩
    · rintro reporter ⟨⟩ fault world
      rfl
    · rintro backend ⟨⟩
      exact ⟨fun _ _ _ _ _ _ _ _ => List.cons_ne_nil _ _,
        fun _ _ _ _ => ⟨rfl, fun _ _ => ⟨rfl, fun _ _ => rfl⟩⟩⟩
  have halarmed : alarmed.Discreet Prod.fst := by
    refine ⟨?_, nofun⟩
    rintro reporter ⟨⟩ fault world
    rfl
  have hhandlers : ∀ leaf ∈ Instruction.leavesAll timedPanic, leaf.2.2.DependsOn see := by
    refine List.forall_mem_singleton.2 fun state state' hstate => ?_
    exact ⟨rfl, hstate⟩
  have hbackend : ∀ backend, workshop.config.transactionBackend = some backend →
      backend.Respects Prod.fst := by
    rintro backend ⟨⟩ method options world world' hworld
    exact .run (congrArg (· + 1) hworld) fun answer after after' hafter => .finish answer hafter
  have hclock : ∀ before before' after after' : Nat × List String, before.1 = before'.1 →
      after.1 = after'.1 → (workshop.clock before after).toJson.untimed
        = (workshop.clock before' after').toJson.untimed :=
    fun _ _ _ _ _ _ => (Timing.untimed_toJson _).trans (Timing.untimed_toJson _).symm
  have hunnoticed := observers_unnoticed workshop Prod.fst Json.untimed hnotetakers halarmed rfl
    hbackend hclock hhandlers {} (rfl : Prod.fst (0, []) = Prod.fst (0, ["swept"]))
  exact ⟨hnotetakers, halarmed, rfl, hhandlers, hunnoticed.1⟩

/-- A blank method is noticed: the call is refused, even though the instrumentation runs its block
    and leaves everything alone. -/
theorem blank_method_noticed :
    let plain : Observers Unit := {}
    let blank : Observers Unit :=
      { instrumentation := some fun _ _ _ world => .run world fun _ after => .finish () after
        method := "" }
    plain.Discreet id ∧ blank.Discreet id
      ∧ ((direct.observedBy plain).perform [] {} ()).1 = .ok {}
      ∧ ((direct.observedBy blank).perform [] {} ()).1
        = .error (.invalidConfig "instrumentation_method" "method name must not be empty") := by
  intro plain blank
  have hblank : blank.Discreet id := by
    refine ⟨nofun, ?_⟩
    rintro backend ⟨⟩
    exact ⟨fun _ _ _ _ _ _ => List.cons_ne_nil _ _, fun _ _ _ _ => ⟨rfl, fun _ _ => rfl⟩⟩
  have htransaction : Text.isBlank direct.config.transactionMethod = false :=
    show Text.isBlank "transaction" = false by decide
  have hinstrument : Text.isBlank "instrument" = false := by decide
  have hvalid : (direct.observedBy plain).config.validate = .ok () :=
    (Config.validate_eq_ok_iff _).2 ⟨htransaction, hinstrument⟩
  have hinvalid : (direct.observedBy blank).config.validate
      = .error (Config.blankMethod "instrumentation_method") := by
    rw [validate_observedBy, htransaction]
    rfl
  refine ⟨⟨nofun, nofun⟩, hblank, ?_, ?_⟩
  · rw [perform, hvalid]
    rfl
  · rw [perform, hinvalid]
    rfl

end Setting

end OperationPipeline

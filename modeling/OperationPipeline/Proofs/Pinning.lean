import OperationPipeline.Proofs.Configurations
import OperationPipeline.Proofs.Production

set_option autoImplicit false

/-! # Pinned configurations

A call runs under the configuration with which it begins, and this is what the accesses so far have
made of the global configuration as it was when the operation's own was first asked for
(`Engine.pinned_at_first_use`). So as long as no edit of its configuration is let through, all
calls of an operation run in the same setting. If its handlers and collaborators go by nothing but
the call that they work on, calls with equal arguments then end alike, whatever happens to other
configurations in between. -/

namespace OperationPipeline

/-- The vantage point of those who see nothing but calls. Fields that an operation might have beside
    its call would be part of the world, and that is not seen from here. -/
def Vantage.secluded {ω : Type} (value : Json → Json) : Vantage ω Unit where
  world := fun _ => ()
  value := value
  trace := true
  instrumentation := true

/-- If durations are left out of what is seen, the clock does not matter. -/
theorem Setting.goesBy_untimed {ω : Type} {setting : Setting ω}
    (htransaction : ∀ backend, setting.config.transactionBackend = some backend →
      backend.Respects fun _ => ())
    (hinstrumentation : ∀ backend, setting.config.instrumentationBackend = some backend →
      backend.Respects fun _ => ()) : setting.GoesBy (fun _ => ()) Json.untimed where
  transaction := htransaction
  instrumentation := hinstrumentation
  reporter _ _ _ _ _ _ := rfl
  clock _ _ _ _ _ _ := by rw [Timing.untimed_toJson, Timing.untimed_toJson]

/-- If the collaborators of a setting and the handlers go by what is seen only, calls in worlds that
    look alike end alike. -/
theorem Setting.GoesBy.perform_alike {ω ν : Type} {see : Vantage ω ν} {setting : Setting ω}
    (h : setting.GoesBy see.world see.value) {instructions : List (Instruction (Handler ω))}
    (hleaves : ∀ leaf ∈ Instruction.leavesAll instructions, leaf.2.2.DependsOn see)
    (arguments : Arguments) {world world' : ω} (hworld : see.world world = see.world world') :
    (setting.perform instructions arguments world).1.map see.outcome
      = (setting.perform instructions arguments world').1.map see.outcome := by
  have hparallel : Parallel see.logged setting.logged setting.logged :=
    (h.parallel rfl : Parallel see.logged (setting.inMode setting.config.mode).logged
      (setting.inMode setting.config.mode).logged)
  exact (hparallel.perform_alike rfl hleaves arguments hworld).1

namespace Engine

variable {κ η τ ι ρ ω : Type} [DecidableEq κ] {engine : Engine κ η τ ι ρ ω}
  {start host host' : Host κ η τ ι ρ ω} {accesses between : List (Access κ η τ ι ρ)}

/-! ## After a call has begun -/

/-- What is in use stays in use. -/
theorem History.keeps_frozen {key : κ} (h : engine.History start accesses host)
    (hfrozen : engine.isFrozen key start = true) :
    (engine.definition key host).type = (engine.definition key start).type
      ∧ (engine.definition key host).instructions = (engine.definition key start).instructions := by
  induction h with
  | nil => exact ⟨rfl, rfl⟩
  | outside h world ih => exact ih
  | snoc h hstep ih =>
    obtain ⟨htype, -, hinstructions, hclosed⟩ := hstep.advances key
    refine ⟨htype.trans ih.1, ?_⟩
    rw [hinstructions, hclosed (h.adds_eq_nil hfrozen).1, List.append_nil]
    exact ih.2

theorem definition_begun (engine : Engine κ η τ ι ρ ω) (key : κ) (host : Host κ η τ ι ρ ω) :
    engine.definition key (engine.begun key host)
      = (engine.definition key host).freeze.pin host.registry.global :=
  (definition_keep engine key key _ host).trans (if_pos rfl)

/-- After a call has begun, the operation has the configuration of the call, with all edits that are
    let through from then on. -/
theorem History.config_of_begun {key : κ}
    (h : engine.History (engine.begun key host) between host') :
    (engine.definition key host').config
      = some (Config.editAll (between.flatMap (·.edits key))
          ((engine.definition key host).configIn host.registry.global)) :=
  h.config_of_some (congrArg Definition.config (definition_begun engine key host))

/-- Until an edit of its configuration is let through, all calls of an operation go by what the
    first of them goes by. -/
theorem call_eq_of_begun {key : κ} (h : engine.History (engine.begun key host) between host')
    (hedits : between.flatMap (·.edits key) = []) (arguments : Arguments) :
    engine.call key arguments host'
      = (engine.setting (engine.definition key host).type
          ((engine.definition key host).configIn host.registry.global)).perform
          (Instruction.mapAll engine.handler (engine.definition key host).instructions) arguments
          (engine.begun key host') := by
  -- the call that has begun has frozen the instructions and pinned the configuration
  have hbegun := definition_begun engine key host
  have hfrozen : engine.isFrozen key (engine.begun key host) = true := by
    rw [isFrozen, hbegun]
    exact Definition.frozen_freeze _
  obtain ⟨htype, hinstructions⟩ := h.keeps_frozen hfrozen
  have hconfig : (engine.definition key host').configIn host'.registry.global
      = (engine.definition key host).configIn host.registry.global := by
    rw [Definition.configIn, h.config_of_begun, hedits]
    rfl
  have hlist : (engine.definition key host').instructions
      = (engine.definition key host).instructions := by
    rw [hinstructions, hbegun]
    exact Definition.instructions_freeze _
  rw [engine.call_eq key arguments host', hconfig, hlist, htype, hbegun]
  rfl

/-! ## Whole histories -/

/-- Configurations are pinned at first use. Take any history that starts where the operation was not
    used yet. The configuration of the operation is what its type makes of the global configuration
    as it is at the first access that reads it, edits it (also if the edit is refused) or calls the
    operation, with all edits that are let through; and each access that shows it shows what the
    accesses before it have made. A call runs under the configuration with which it begins from its
    start to its end, whatever its handlers do in the meantime, and continues the history.

    If handlers and collaborators go by nothing but the call that they work on, then all calls with
    equal arguments end alike, however they end, until an edit of the operation's configuration is
    let through. Durations may be left out of what is seen (`value`). -/
theorem pinned_at_first_use (hengine : engine.Orderly) (key : κ)
    (hfresh : start.registry.find? key = none) (h : engine.History start accesses host) :
    let type := engine.catalogue key
    let config := Access.configAfter key type start.registry.global accesses
    let list := (type.declare Plan.empty).instructions ++ accesses.flatMap (·.adds key)
    let setting := engine.setting type config
    (engine.config key host).1 = config
      ∧ (∀ earlier access later, accesses = earlier ++ access :: later →
        access.ShowsConfig key (Access.configAfter key type start.registry.global earlier))
      ∧ (∀ arguments,
        engine.call key arguments host
            = setting.perform (Instruction.mapAll engine.handler list) arguments
                (engine.begun key host)
          ∧ engine.History start (accesses ++ [.call key list config]) (engine.begun key host)
          ∧ ∃ inner, engine.History (engine.begun key host) inner
              (engine.call key arguments host).2)
      ∧ ∀ value,
        let see : Vantage (Host κ η τ ι ρ ω) Unit := .secluded value
        setting.GoesBy see.world see.value →
        (∀ leaf ∈ Instruction.leavesAll list, (engine.handler leaf.2.2).DependsOn see) →
        ∀ between host', engine.History (engine.begun key host) between host' →
        between.flatMap (·.edits key) = [] → ∀ arguments,
        (engine.call key arguments host).1.map see.outcome
          = (engine.call key arguments host').1.map see.outcome := by
  intro type config list setting
  have hdeclares := h.declares hfresh
  have hconfig := h.configIn hfresh
  have hcall := fun arguments => engine.call_eq key arguments host
  rw [hdeclares.type, hdeclares.instructions, hconfig] at hcall
  refine ⟨hconfig, ?_, fun arguments => ⟨hcall arguments, ?_, ?_⟩, ?_⟩
  · rintro earlier access later rfl
    obtain ⟨before, after, hearlier, haccess, -⟩ := h.split
    have hshows := haccess.showsConfig key
    rwa [hearlier.configIn hfresh] at hshows
  · have hbegins := h.snoc (.call key host)
    rwa [hdeclares.instructions, hconfig] at hbegins
  · exact hengine.reaches_call key arguments host
  · intro value see hcollaborators hhandlers between host' hbetween hedits arguments
    have hlater := call_eq_of_begun hbetween hedits arguments
    rw [hdeclares.type, hdeclares.instructions, hconfig] at hlater
    rw [hcall, hlater]
    exact hcollaborators.perform_alike (Instruction.forall_leavesAll_mapAll.2 hhandlers)
      arguments rfl

end Engine

/-! ## Operations that change the default mode -/

namespace Switching

/-- Makes production mode the mode of a configuration. -/
def toProduction (config : Config Empty Empty Empty) : Config Empty Empty Empty :=
  { config with mode := .production }

/-- Gives transactions another method. -/
def toAtomic (config : Config Empty Empty Empty) : Config Empty Empty Empty :=
  { config with transactionMethod := "atomic" }

/-- Puts out the amount that is asked for, and makes production mode the global default. -/
def switchMode : Handler (Host String Unit Empty Empty Empty Unit) := fun state =>
  let amount := (state.call.arguments.params.at? "amount").getD .null
  (.answered .nothing, ⟨state.call.mapOutcome (·.setOutput amount),
    (Engine.configureGlobal toProduction state.world).2⟩)

theorem dependsOn_switchMode (value : Json → Json) : switchMode.DependsOn (.secluded value) := by
  intro state state' hstate
  obtain ⟨hcall, -⟩ := Sight.state_eq_iff.1 hstate
  let see : Vantage (Host String Unit Empty Empty Empty Unit) Unit := .secluded value
  have harguments : state.call.arguments = state'.call.arguments :=
    (congrArg Call.arguments hcall :
      (see.call state.call).arguments = (see.call state'.call).arguments)
  have hput : ∀ call output, see.call (call.mapOutcome (·.setOutput output))
      = (see.call call).mapOutcome (·.setOutput output) := fun _ _ => rfl
  refine ⟨rfl, Sight.state_eq_iff.2 ⟨?_, rfl⟩⟩
  rw [switchMode, switchMode, harguments]
  exact (hput _ _).trans ((congrArg (Call.mapOutcome _) hcall).trans (hput _ _).symm)

/-- Operations with that step alone, which takes longer once production mode is the default. -/
def engine : Engine String Unit Empty Empty Empty Unit where
  catalogue key :=
    { name := none, typeName := key, declare := (·.benchmark "switch" ()), configure := id }
  handler _ := switchMode
  transaction := nofun
  instrumentation := nofun
  reporter := nofun
  clock before _ := ⟨⟨if before.registry.global.mode = .production then 2 else 1⟩, none⟩

theorem orderly_engine : engine.Orderly where
  handler _ state := .single (.configureGlobal toProduction state.world)
  transaction := nofun
  instrumentation := nofun
  reporter := nofun

/-- Three of something. -/
def ofThree : Arguments := Arguments.param {} "amount" (.ofInt 3)

/-- The host in which orders have been configured. -/
def prepared : Host String Unit Empty Empty Empty Unit :=
  (engine.configure "Order" toAtomic { outside := () }).2

/-- The host after an order. -/
def ordered : Host String Unit Empty Empty Empty Unit :=
  (engine.call "Order" ofThree prepared).2

/-- The host after the order and its refund. -/
def refunded : Host String Unit Empty Empty Empty Unit :=
  (engine.call "Refund" ofThree ordered).2

/-- Orders stay in development mode after the first of them has changed the default, and but for how
    long it took the second is like the first. Refunds, which are called for the first time after
    that, are in production mode. -/
theorem orders_stay_in_development :
    let start : Host String Unit Empty Empty Empty Unit := { outside := () }
    let setting := engine.setting (engine.catalogue "Order") (toAtomic {})
    let see : Vantage (Host String Unit Empty Empty Empty Unit) Unit := .secluded Json.untimed
    engine.Orderly ∧ start.registry.find? "Order" = none
      ∧ engine.History start [.configure "Order" toAtomic (.ok ())] prepared
      ∧ setting.GoesBy see.world see.value ∧ switchMode.DependsOn see
      ∧ (∃ between, engine.History (engine.begun "Order" prepared) between refunded
        ∧ between.flatMap (·.edits "Order") = [])
      ∧ refunded.registry.global.mode = .production
      ∧ (engine.config "Order" refunded).1 = toAtomic {}
      ∧ (engine.call "Order" ofThree prepared).1.map see.outcome
        = (engine.call "Order" ofThree refunded).1.map see.outcome
      ∧ ∃ order refund again, (engine.call "Order" ofThree prepared).1 = .ok order
        ∧ (engine.call "Refund" ofThree ordered).1 = .ok refund
        ∧ (engine.call "Order" ofThree refunded).1 = .ok again
        ∧ refund.trace.length = 0 ∧ again.trace.length = 1
        ∧ Json.sameFields order.information again.information = false := by
  intro start setting see
  have hanswer : (engine.configure "Order" toAtomic { outside := () }).1 = .ok () := by rfl
  have hhistory : engine.History start [.configure "Order" toAtomic (.ok ())] prepared := by
    rw [← hanswer]
    exact .single (.configure "Order" toAtomic start)
  have hcollaborators : setting.GoesBy see.world see.value := Setting.goesBy_untimed nofun nofun
  have hordered : engine.Step (engine.begun "Order" prepared) _ ordered :=
    .configureGlobal toProduction (engine.begun "Order" prepared)
  have hrefunded : engine.Step (engine.begun "Refund" ordered) _ refunded :=
    .configureGlobal toProduction (engine.begun "Refund" ordered)
  have hbetween := ((Engine.History.single hordered).snoc (.call "Refund" ordered)).snoc hrefunded
  have hhandler : switchMode.DependsOn see := dependsOn_switchMode Json.untimed
  obtain ⟨-, -, -, halike⟩ := Engine.pinned_at_first_use orderly_engine "Order" rfl hhistory
  refine ⟨orderly_engine, rfl, hhistory, hcollaborators, hhandler, ⟨_, hbetween, rfl⟩, rfl, rfl,
    halike Json.untimed hcollaborators (fun _ _ => hhandler) _ refunded hbetween rfl ofThree,
    _, _, _, rfl, rfl, rfl, rfl, rfl, ?_⟩
  decide +kernel

end Switching

end OperationPipeline

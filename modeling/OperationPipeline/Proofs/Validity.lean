import OperationPipeline.Proofs.Configurations

set_option autoImplicit false

/-! # Valid configurations

The global configuration is valid at all times, since an edit is let through only if it leaves a
valid configuration, and changes nothing otherwise. The same is true of the edits of an operation's
own configuration, but not of what the operation's type makes of the global one, which nobody looks
at before a call. So an operation may start with a configuration that is not valid: then its calls
are refused before anything is run (`Engine.Refuses`), until an edit is let through for the first
time; from then on they are not (`Engine.Admits`). -/

namespace OperationPipeline

variable {κ η τ ι ρ ω : Type}

/-! ## Errors of configurations -/

theorem Config.error_of_validate {config : Config τ ι ρ} {error : EngineError}
    (h : config.validate = .error error) : ∃ option, error = blankMethod option := by
  rw [validate] at h
  split at h
  · exact ⟨_, (Except.error.inj h).symm⟩
  · split at h
    · exact ⟨_, (Except.error.inj h).symm⟩
    · cases h

namespace Engine

/-! ## Edits that are refused -/

/-- What a global edit is answered, and that nothing happens if it is refused. -/
theorem configureGlobal_answer (edit : Config τ ι ρ → Config τ ι ρ) (host : Host κ η τ ι ρ ω) :
    (configureGlobal edit host).1 = (edit host.registry.global).validate
      ∧ ∀ error, (configureGlobal edit host).1 = .error error →
        (configureGlobal edit host).2 = host := by
  rw [configureGlobal_eq]
  cases (edit host.registry.global).validate with
  | ok u =>
    refine ⟨rfl, fun error herror => ?_⟩
    cases herror
  | error error => exact ⟨rfl, fun _ _ => rfl⟩

variable [DecidableEq κ] {engine : Engine κ η τ ι ρ ω} {start host host' : Host κ η τ ι ρ ω}
  {access : Access κ η τ ι ρ} {accesses later : List (Access κ η τ ι ρ)}

/-- What an edit of an operation's configuration is answered, and that it is as if the configuration
    had only been read if the edit is refused. -/
theorem configure_answer (engine : Engine κ η τ ι ρ ω) (key : κ)
    (edit : Config τ ι ρ → Config τ ι ρ) (host : Host κ η τ ι ρ ω) :
    (engine.configure key edit host).1 = (edit (engine.config key host).1).validate
      ∧ ∀ error, (engine.configure key edit host).1 = .error error →
        (engine.configure key edit host).2 = (engine.config key host).2 := by
  rw [configure, Definition.configure_eq, config]
  dsimp only
  cases (edit ((engine.definition key host).configIn host.registry.global)).validate with
  | ok u =>
    refine ⟨rfl, fun error herror => ?_⟩
    cases herror
  | error error => exact ⟨rfl, fun _ _ => rfl⟩

/-- Reading a configuration changes none. -/
theorem config_config (engine : Engine κ η τ ι ρ ω) (key other : κ) (host : Host κ η τ ι ρ ω) :
    (engine.config other (engine.config key host).2).1 = (engine.config other host).1 := by
  rw [config, config, config]
  dsimp only
  rw [definition_keep]
  split
  · rename_i hkey
    subst hkey
    rfl
  · rfl

/-- Reading a configuration that is stored changes nothing at all. -/
theorem config_of_stored {key : κ} {config : Config τ ι ρ}
    (h : (engine.definition key host).config = some config) :
    (engine.config key host).2 = host := by
  have hpin : (engine.definition key host).pin host.registry.global
      = engine.definition key host := by
    rw [Definition.pin, Definition.configIn, h, Option.getD_some, ← h]
  have hfind : host.registry.find? key = some (engine.definition key host) := by
    refine find?_of_ne_ofType fun hfresh => ?_
    rw [hfresh] at h
    cases h
  rw [Engine.config, hpin]
  dsimp only
  rw [keep, Registry.put_of_find? hfind]

/-! ## Calls -/

/-- Whether calls of an operation are refused with the given error, whatever its handlers and
    collaborators are. -/
def Refuses (engine : Engine κ η τ ι ρ ω) (key : κ) (error : EngineError)
    (host : Host κ η τ ι ρ ω) : Prop :=
  ∀ engine' : Engine κ η τ ι ρ ω, engine'.catalogue = engine.catalogue →
    ∀ arguments, engine'.call key arguments host = (.error error, engine.begun key host)

/-- Whether calls of an operation are carried out without regard to whether its configuration is
    valid. -/
def Admits (engine : Engine κ η τ ι ρ ω) (key : κ) (host : Host κ η τ ι ρ ω) : Prop :=
  let definition := engine.definition key host
  let setting := engine.setting definition.type (definition.configIn host.registry.global)
  ∀ arguments, engine.call key arguments host
    = Setting.concluded (setting.instrumented setting.displayName .operation
        (setting.walkAll (Instruction.mapAll engine.handler definition.instructions) .root)
        ⟨Call.start arguments, engine.begun key host⟩)

theorem definition_of_catalogue {engine' : Engine κ η τ ι ρ ω}
    (h : engine'.catalogue = engine.catalogue) (key : κ) (host : Host κ η τ ι ρ ω) :
    engine'.definition key host = engine.definition key host := by
  rw [definition, definition, h]

theorem refuses_of_invalid {key : κ} {error : EngineError}
    (h : (engine.config key host).1.validate = .error error) : engine.Refuses key error host := by
  intro engine' hcatalogue arguments
  have hdefinition := definition_of_catalogue hcatalogue key host
  have hvalidate : (engine'.setting (engine.definition key host).type
      ((engine.definition key host).configIn host.registry.global)).config.validate
      = .error error := h
  rw [call_eq, begun, hdefinition, Setting.perform, hvalidate]
  rfl

theorem admits_of_valid {key : κ} (h : (engine.config key host).1.validate = .ok ()) :
    engine.Admits key host := by
  intro arguments
  have hvalidate : (engine.setting (engine.definition key host).type
      ((engine.definition key host).configIn host.registry.global)).config.validate = .ok () := h
  rw [call_eq, Setting.perform, hvalidate]

/-! ## Configurations that stay valid -/

/-- An edit that is let through leaves a valid configuration. -/
theorem Step.valid_of_edits {key : κ} (h : engine.Step host access host')
    (hedits : access.edits key ≠ []) :
    ∃ config, (engine.definition key host').config = some config ∧ config.validate = .ok () := by
  obtain ⟨hconfig, hvalid⟩ := h.configured key
  have hconfigures : access.configures key = true :=
    Bool.of_not_eq_false fun hidle => hedits (Access.edits_of_not_configures hidle)
  rw [if_pos hconfigures] at hconfig
  exact ⟨_, hconfig, hvalid hedits⟩

/-- A valid configuration is valid where it is stored. -/
theorem Step.valid_of_valid {key : κ} (h : engine.Step host access host')
    (hvalid : (engine.config key host).1.validate = .ok ()) {config : Config τ ι ρ}
    (hconfig : (engine.definition key host').config = some config) :
    config.validate = .ok () := by
  by_cases hedits : access.edits key = []
  · -- what is stored afterwards is what was found, be it stored now or before
    rw [(h.configured key).config, hedits] at hconfig
    split at hconfig
    · exact Option.some.inj hconfig ▸ hvalid
    · rw [Engine.config, Definition.configIn, hconfig] at hvalid
      exact hvalid
  · obtain ⟨edited, hedited, hvalidEdited⟩ := h.valid_of_edits hedits
    rwa [Option.some.inj (hconfig.symm.trans hedited)]

/-- Once an edit was let through, the configuration is valid for good. -/
theorem History.valid_of_edits {key : κ} (h : engine.History start accesses host)
    (hedits : accesses.flatMap (·.edits key) ≠ []) :
    ∃ config, (engine.definition key host).config = some config ∧ config.validate = .ok () := by
  induction h with
  | nil => exact absurd rfl hedits
  | outside h world ih => exact ih hedits
  | @snoc accesses mid host access h hstep ih =>
    by_cases hlast : access.edits key = []
    · rw [List.flatMap_append, List.flatMap_singleton, hlast, List.append_nil] at hedits
      obtain ⟨config, hconfig, hvalid⟩ := ih hedits
      have hkept := (History.single hstep).config_of_some hconfig
      rw [List.flatMap_singleton, hlast] at hkept
      exact ⟨config, hkept, hvalid⟩
    · exact hstep.valid_of_edits hlast

/-- If the type makes valid configurations of valid ones, the configuration is always valid. -/
theorem History.valid_of_type {key : κ} (h : engine.History start accesses host)
    (hfresh : start.registry.find? key = none)
    (hglobal : start.registry.global.validate = .ok ())
    (htype : ∀ config : Config τ ι ρ, config.validate = .ok () →
      ((engine.catalogue key).configure config).validate = .ok ()) :
    (engine.config key host).1.validate = .ok () := by
  induction h with
  | nil =>
    rw [config, definition, hfresh]
    exact htype _ hglobal
  | outside h world ih => exact ih
  | @snoc accesses mid host access h hstep ih =>
    have hwhole := h.snoc hstep
    rw [config, Definition.configIn]
    cases hconfig : (engine.definition key host).config with
    | some config => exact hstep.valid_of_valid ih hconfig
    | none =>
      -- it is not stored yet, so the global configuration of the moment counts
      rw [(hwhole.declares hfresh).type]
      exact htype _ (hwhole.validGlobal hglobal)

/-! ## Whole histories -/

/-- From an access on that asks for the configuration, only edits that are let through change it. -/
theorem History.config_after {key : κ} (h : engine.History start accesses host)
    (hfresh : start.registry.find? key = none) (haccess : access.configures key = true)
    (hlater : engine.History host (access :: later) host') :
    (engine.config key host').1
      = Config.editAll ((access :: later).flatMap (·.edits key)) (engine.config key host).1 := by
  rw [config, config, (h.append hlater).configIn hfresh, h.configIn hfresh,
    Access.configAfter_append (Or.inr haccess)]

theorem History.admits_of_edits {key : κ} (h : engine.History start accesses host)
    (hedits : accesses.flatMap (·.edits key) ≠ []) : engine.Admits key host := by
  obtain ⟨config, hconfig, hvalid⟩ := h.valid_of_edits hedits
  refine admits_of_valid ?_
  rw [Engine.config, Definition.configIn, hconfig]
  exact hvalid

/-- Edits keep configurations valid. Take any history that starts with a valid global configuration
    and where the operation was not used yet. Then the global configuration is valid. An edit, be it
    a global one or one of an operation, is let through just if what it leaves is valid. One that is
    refused is answered with the error of a blank method name and leaves all configurations as they
    are; only if that of the operation was not stored yet, it is from then on.

    If the type makes valid configurations of valid ones, or else once an edit of the operation's
    configuration was let through, calls of the operation are carried out without regard to it. If
    the configuration is not valid, all calls are refused before anything is run, and from the first
    access that asks for the configuration they are refused just until an edit is let through. -/
theorem refused_until_edited (hengine : engine.Orderly) (key : κ)
    (hglobal : start.registry.global.validate = .ok ())
    (hfresh : start.registry.find? key = none) (h : engine.History start accesses host) :
    let type := engine.catalogue key
    host.registry.global.validate = .ok ()
      ∧ (∀ edit, (configureGlobal edit host).1 = (edit host.registry.global).validate
        ∧ ∀ error, (configureGlobal edit host).1 = .error error →
          (∃ option, error = Config.blankMethod option) ∧ (configureGlobal edit host).2 = host)
      ∧ (∀ other edit,
        (engine.configure other edit host).1 = (edit (engine.config other host).1).validate
        ∧ ∀ error, (engine.configure other edit host).1 = .error error →
          let after := (engine.configure other edit host).2
          (∃ option, error = Config.blankMethod option)
            ∧ after.registry.global = host.registry.global
            ∧ (∀ third, (engine.config third after).1 = (engine.config third host).1)
            ∧ ∀ config, (engine.definition other host).config = some config → after = host)
      ∧ ((∀ config, config.validate = .ok () → (type.configure config).validate = .ok ())
          ∨ accesses.flatMap (·.edits key) ≠ [] → engine.Admits key host)
      ∧ (∀ error, (engine.config key host).1.validate = .error error →
        (∃ option, error = Config.blankMethod option) ∧ engine.Refuses key error host
          ∧ ∀ access later host', access.configures key = true →
            engine.History host (access :: later) host' →
            ((access :: later).flatMap (·.edits key) = [] → engine.Refuses key error host')
            ∧ ((access :: later).flatMap (·.edits key) ≠ [] → engine.Admits key host'))
      ∧ ∀ other arguments, engine.Reaches host (engine.call other arguments host).2 := by
  intro type
  refine ⟨h.validGlobal hglobal, fun edit => ?_, fun other edit => ?_, ?_, fun error herror => ?_,
    fun other arguments => .call hengine other arguments host⟩
  · obtain ⟨hanswer, hrefused⟩ := configureGlobal_answer edit host
    exact ⟨hanswer, fun error herror =>
      ⟨Config.error_of_validate (hanswer.symm.trans herror), hrefused error herror⟩⟩
  · obtain ⟨hanswer, hrefused⟩ := engine.configure_answer other edit host
    refine ⟨hanswer, fun error herror => ?_⟩
    rw [hrefused error herror]
    exact ⟨Config.error_of_validate (hanswer.symm.trans herror), rfl,
      fun third => engine.config_config other third host, fun config => config_of_stored⟩
  · rintro (htype | hedits)
    · exact admits_of_valid (h.valid_of_type hfresh hglobal htype)
    · exact h.admits_of_edits hedits
  · refine ⟨Config.error_of_validate herror, refuses_of_invalid herror, ?_⟩
    intro access later host' haccess hlater
    refine ⟨fun hnone => refuses_of_invalid ?_, hlater.admits_of_edits⟩
    rw [h.config_after hfresh haccess hlater, hnone]
    exact herror

end Engine

/-! ## An operation that has to be repaired -/

namespace Repairing

/-- Gives transactions a method whose name is blank. -/
def toBlank (config : Config Empty Empty Empty) : Config Empty Empty Empty :=
  { config with transactionMethod := " " }

/-- Gives transactions a method that has a name. -/
def toAtomic (config : Config Empty Empty Empty) : Config Empty Empty Empty :=
  { config with transactionMethod := "atomic" }

/-- Operations that count their calls. Orders make their own configuration invalid. -/
def engine : Engine String Unit Empty Empty Empty Nat where
  catalogue key :=
    { name := none, typeName := key, declare := (·.step "count" ())
      configure := if key = "Order" then toBlank else id }
  handler _ state :=
    (.answered .nothing, { state with world.outside := state.world.outside + 1 })
  transaction := nofun
  instrumentation := nofun
  reporter := nofun
  clock _ _ := ⟨default, none⟩

theorem orderly_engine : engine.Orderly where
  handler _ state := .outside state.world _
  transaction := nofun
  instrumentation := nofun
  reporter := nofun

/-- The host at the start. -/
def start : Host String Unit Empty Empty Empty Nat := { outside := 0 }

/-- The host after a call that is refused. -/
def refused : Host String Unit Empty Empty Empty Nat :=
  (engine.call "Order" {} start).2

/-- The host after an edit that is let through. -/
def repaired : Host String Unit Empty Empty Empty Nat :=
  (engine.configure "Order" toAtomic refused).2

/-- The error that orders are answered with. -/
def error : EngineError := Config.blankMethod "transaction_method"

/-- Orders are refused without being counted, and are carried out once their configuration was
    repaired. Refunds are carried out from the start. -/
theorem orders_refused_until_repaired :
    engine.Orderly ∧ start.registry.global.validate = .ok ()
      ∧ start.registry.find? "Order" = none
      ∧ engine.History start [.configureGlobal toBlank (.error error)] start
      ∧ (engine.config "Order" start).1.validate = .error error
      ∧ engine.Refuses "Order" error start ∧ refused.outside = 0
      ∧ (∃ later,
        engine.History start (.call "Order" [.leaf .step "count" ()] (toBlank {}) :: later) repaired
          ∧ later.flatMap (·.edits "Order") = [toAtomic])
      ∧ engine.Admits "Order" repaired ∧ (engine.call "Order" {} repaired).2.outside = 1
      ∧ (∀ config, config.validate = .ok () →
        ((engine.catalogue "Refund").configure config).validate = .ok ())
      ∧ engine.Admits "Refund" start := by
  have hglobal : Engine.configureGlobal toBlank start = (.error error, start) := by rfl
  have hedited : engine.Step start _ _ := .configureGlobal toBlank start
  rw [hglobal] at hedited
  have hstart : engine.History start [.configureGlobal toBlank (.error error)] start :=
    .single hedited
  have hvalid : start.registry.global.validate = .ok () := Config.validate_default
  have hfresh : start.registry.find? "Order" = none := rfl
  have hinvalid : (engine.config "Order" start).1.validate = .error error := by rfl
  have hcalled : engine.Step start (.call "Order" [.leaf .step "count" ()] (toBlank {})) refused :=
    .call "Order" start
  have hanswer : (engine.configure "Order" toAtomic refused).1 = .ok () := by rfl
  have hrepaired : engine.Step refused (.configure "Order" toAtomic (.ok ())) repaired := by
    rw [← hanswer]
    exact .configure "Order" toAtomic refused
  have hlater := (Engine.History.single hcalled).snoc hrepaired
  obtain ⟨-, -, -, -, hcalls, -⟩ :=
    Engine.refused_until_edited orderly_engine "Order" hvalid hfresh hstart
  obtain ⟨-, hrefuses, hafter⟩ := hcalls error hinvalid
  obtain ⟨-, hadmits⟩ := hafter _ _ repaired rfl hlater
  have hrefund : ∀ config : Config Empty Empty Empty, config.validate = .ok () →
      ((engine.catalogue "Refund").configure config).validate = .ok () := fun _ hconfig => hconfig
  obtain ⟨-, -, -, hrefunds, -⟩ :=
    Engine.refused_until_edited orderly_engine "Refund" hvalid rfl hstart
  exact ⟨orderly_engine, hvalid, hfresh, hstart, hinvalid, hrefuses, rfl, ⟨_, hlater, rfl⟩,
    hadmits (List.cons_ne_nil toAtomic []), rfl, hrefund, hrefunds (Or.inl hrefund)⟩

end Repairing

end OperationPipeline

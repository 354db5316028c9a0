import OperationPipeline.Definition
import OperationPipeline.Walk.Basic

set_option autoImplicit false

/-! # The registry and the engine

A registry holds the global configuration and the definition of each operation that was used, under
a key of some type `κ`. It is part of the world that handlers act on, so a handler can declare,
configure and call operations itself; `Host` is that world, with everything outside the registry in
a type `ω`.

An engine knows the operations by their keys and the collaborators by their handles. Its functions
are what can be done with the operations from outside and from within handlers alike. -/

namespace OperationPipeline

/-- The state that outlives calls. -/
structure Registry (κ η τ ι ρ : Type) where
  global : Config τ ι ρ := {}
  /-- The definitions in use, in the order of their first use. -/
  definitions : List (κ × Definition η τ ι ρ) := []

namespace Registry

variable {κ η τ ι ρ : Type} [DecidableEq κ]

/-- The definition under `key` in a list of entries. -/
def findEntry (key : κ) : List (κ × Definition η τ ι ρ) → Option (Definition η τ ι ρ)
  | [] => none
  | (k, definition) :: rest => if k = key then some definition else findEntry key rest

/-- Replaces the entry of `key`, or adds one at the end. -/
def putEntry (key : κ) (definition : Definition η τ ι ρ) :
    List (κ × Definition η τ ι ρ) → List (κ × Definition η τ ι ρ)
  | [] => [(key, definition)]
  | (k, d) :: rest =>
    if k = key then (k, definition) :: rest else (k, d) :: putEntry key definition rest

/-- The definition under `key`, if the operation was used. -/
def find? (registry : Registry κ η τ ι ρ) (key : κ) : Option (Definition η τ ι ρ) :=
  findEntry key registry.definitions

/-- Whether the operation was used. -/
def holds (registry : Registry κ η τ ι ρ) (key : κ) : Bool :=
  (registry.find? key).isSome

/-- Stores a definition. -/
def put (registry : Registry κ η τ ι ρ) (key : κ) (definition : Definition η τ ι ρ) :
    Registry κ η τ ι ρ :=
  { registry with definitions := putEntry key definition registry.definitions }

theorem find?_put (registry : Registry κ η τ ι ρ) (key other : κ)
    (definition : Definition η τ ι ρ) :
    (registry.put key definition).find? other
      = if key = other then some definition else registry.find? other := by
  simp only [put, find?]
  induction registry.definitions with
  | nil => rfl
  | cons entry rest ih =>
    obtain ⟨k, d⟩ := entry
    by_cases hk : k = key
    · subst hk
      by_cases h : k = other <;> simp [putEntry, findEntry, h]
    · by_cases h : key = other
      · subst h
        simp [putEntry, findEntry, hk, ih]
      · by_cases ho : k = other
        · subst ho
          simp [putEntry, findEntry, hk, h]
        · simp [putEntry, findEntry, hk, h, ho, ih]

theorem putEntry_of_findEntry {key : κ} {definition : Definition η τ ι ρ}
    {entries : List (κ × Definition η τ ι ρ)} (h : findEntry key entries = some definition) :
    putEntry key definition entries = entries := by
  induction entries with
  | nil => exact nomatch h
  | cons entry rest ih =>
    obtain ⟨k, d⟩ := entry
    rw [findEntry] at h
    rw [putEntry]
    by_cases hk : k = key
    · rw [if_pos hk] at h ⊢
      rw [Option.some.inj h]
    · rw [if_neg hk] at h ⊢
      rw [ih h]

/-- Storing what is stored already changes nothing. -/
theorem put_of_find? {registry : Registry κ η τ ι ρ} {key : κ} {definition : Definition η τ ι ρ}
    (h : registry.find? key = some definition) : registry.put key definition = registry := by
  rw [put, putEntry_of_findEntry h]

theorem global_put (registry : Registry κ η τ ι ρ) (key : κ) (definition : Definition η τ ι ρ) :
    (registry.put key definition).global = registry.global := rfl

end Registry

/-- The registry and the world outside it. -/
structure Host (κ η τ ι ρ ω : Type) where
  registry : Registry κ η τ ι ρ := {}
  outside : ω

/-- The operations by key, and what handlers and handles of collaborators stand for. -/
structure Engine (κ η τ ι ρ ω : Type) where
  catalogue : κ → OperationType η τ ι ρ
  handler : η → Handler (Host κ η τ ι ρ ω)
  transaction : τ → TransactionBackend (Host κ η τ ι ρ ω)
  instrumentation : ι → Instrumentation (Host κ η τ ι ρ ω)
  reporter : ρ → Reporter (Host κ η τ ι ρ ω)
  clock : Clock (Host κ η τ ι ρ ω)

namespace Engine

variable {κ η τ ι ρ ω : Type} [DecidableEq κ]

/-- The definition of an operation, which is made on its first use. -/
def definition (engine : Engine κ η τ ι ρ ω) (key : κ) (host : Host κ η τ ι ρ ω) :
    Definition η τ ι ρ :=
  (host.registry.find? key).getD (Definition.ofType (engine.catalogue key))

/-- Stores a definition. -/
def keep (key : κ) (definition : Definition η τ ι ρ) (host : Host κ η τ ι ρ ω) :
    Host κ η τ ι ρ ω :=
  { host with registry := host.registry.put key definition }

theorem definition_keep (engine : Engine κ η τ ι ρ ω) (key other : κ)
    (definition : Definition η τ ι ρ) (host : Host κ η τ ι ρ ω) :
    engine.definition other (keep key definition host)
      = if key = other then definition else engine.definition other host := by
  rw [Engine.definition, keep, Registry.find?_put]
  by_cases h : key = other
  · rw [if_pos h, if_pos h]
    rfl
  · rw [if_neg h, if_neg h]
    rfl

/-- Storing the definition that an operation has anyway changes no definition. -/
theorem definition_keep_self (engine : Engine κ η τ ι ρ ω) (key other : κ)
    (host : Host κ η τ ι ρ ω) :
    engine.definition other (keep key (engine.definition key host) host)
      = engine.definition other host := by
  rw [definition_keep]
  split
  · next h => rw [h]
  · rfl

/-! ## Definitions -/

/-- Adds instructions to an operation that is not frozen. -/
def declare (engine : Engine κ η τ ι ρ ω) (key : κ) (script : Plan η → Plan η)
    (host : Host κ η τ ι ρ ω) : Except EngineError Unit × Host κ η τ ι ρ ω :=
  let definition := engine.definition key host
  match definition.declare script with
  | .ok definition => (.ok (), keep key definition host)
  | .error error => (.error error, keep key definition host)

/-- The instructions of an operation, which freezes it. -/
def instructions (engine : Engine κ η τ ι ρ ω) (key : κ) (host : Host κ η τ ι ρ ω) :
    List (Instruction η) × Host κ η τ ι ρ ω :=
  let definition := (engine.definition key host).freeze
  (definition.instructions, keep key definition host)

/-- The outlines of the instructions of an operation, which freezes it. -/
def outline (engine : Engine κ η τ ι ρ ω) (key : κ) (host : Host κ η τ ι ρ ω) :
    Json × Host κ η τ ι ρ ω :=
  let definition := (engine.definition key host).freeze
  (definition.outline, keep key definition host)

/-- Whether an operation is frozen. To ask is to use the operation, but the definition that would be
    stored is the one it has anyway, so the host is left as it is: of all later accesses only
    `Registry.holds` could tell (`definition_keep_self`). -/
def isFrozen (engine : Engine κ η τ ι ρ ω) (key : κ) (host : Host κ η τ ι ρ ω) : Bool :=
  (engine.definition key host).frozen

/-! ## Configurations -/

/-- The configuration of an operation, which is kept from now on. -/
def config (engine : Engine κ η τ ι ρ ω) (key : κ) (host : Host κ η τ ι ρ ω) :
    Config τ ι ρ × Host κ η τ ι ρ ω :=
  let definition := engine.definition key host
  (definition.configIn host.registry.global, keep key (definition.pin host.registry.global) host)

/-- Edits the configuration of an operation. -/
def configure (engine : Engine κ η τ ι ρ ω) (key : κ) (edit : Config τ ι ρ → Config τ ι ρ)
    (host : Host κ η τ ι ρ ω) : Except EngineError Unit × Host κ η τ ι ρ ω :=
  match (engine.definition key host).configure host.registry.global edit with
  | (answer, definition) => (answer, keep key definition host)

/-- Edits the global configuration. -/
def configureGlobal (edit : Config τ ι ρ → Config τ ι ρ) (host : Host κ η τ ι ρ ω) :
    Except EngineError Unit × Host κ η τ ι ρ ω :=
  match host.registry.global.edited edit with
  | .error error => (.error error, host)
  | .ok global => (.ok (), { host with registry := { host.registry with global } })

/-- Puts the global configuration back to its defaults. -/
def resetGlobal (host : Host κ η τ ι ρ ω) : Host κ η τ ι ρ ω :=
  { host with registry := { host.registry with global := {} } }

/-! ## Calls -/

/-- What a call of an operation runs in under the given configuration. -/
def setting (engine : Engine κ η τ ι ρ ω) (type : OperationType η τ ι ρ)
    (config : Config τ ι ρ) : Setting (Host κ η τ ι ρ ω) :=
  { config := config.map engine.transaction engine.instrumentation engine.reporter
    name := type.name
    typeName := type.typeName
    clock := engine.clock }

/-- Calls an operation: its instructions are frozen, its configuration is kept, and both are those
    of the whole call, whatever its handlers do. -/
def call (engine : Engine κ η τ ι ρ ω) (key : κ) (arguments : Arguments)
    (host : Host κ η τ ι ρ ω) : Except EngineError Outcome × Host κ η τ ι ρ ω :=
  -- a call that is refused for its configuration is a first use all the same
  let definition := (engine.definition key host).freeze
  let config := definition.configIn host.registry.global
  (engine.setting definition.type config).perform
    (Instruction.mapAll engine.handler definition.instructions) arguments
    (keep key (definition.pin host.registry.global) host)

/-- The definition of an operation for inspection. As with `isFrozen`, the host is left as it is. -/
def inspected (engine : Engine κ η τ ι ρ ω) (key : κ) (host : Host κ η τ ι ρ ω) : String :=
  (engine.definition key host).inspected

end Engine

end OperationPipeline

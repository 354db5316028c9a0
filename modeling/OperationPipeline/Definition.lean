import OperationPipeline.Config
import OperationPipeline.Instruction.Plan

set_option autoImplicit false

/-! # Definitions

The type of an operation says how it is called, what it declares and how it configures itself. Its
definition is the state that all its calls share: the declared instructions, to which more can be
added until they are used for the first time, and the configuration, which is copied from the global
one and configured when it is first asked for.

The instructions are kept in two places: those that are still pending, and those in use. When the
instructions are used for the first time, the pending ones are moved over and nothing can be added
any more. -/

namespace OperationPipeline

/-! ## Declarations -/

/-- The declared instructions of an operation. -/
structure Declarations (η : Type) where
  /-- What was declared and is not in use yet. -/
  pending : List (Instruction η) := []
  /-- Whether nothing can be added any more. -/
  sealed : Bool := false
  /-- What is in use, once the instructions were asked for. -/
  inUse : Option (List (Instruction η)) := none
  /-- Declarations are sealed when they come into use, and not before. -/
  sealed_eq : sealed = inUse.isSome := by rfl
  /-- What is in use is pending no longer. -/
  pending_eq_nil : sealed = true → pending = [] := by simp

namespace Declarations

variable {η : Type}

/-- Declarations that nobody has used. -/
def ofList (instructions : List (Instruction η)) : Declarations η :=
  { pending := instructions }

/-- Adds instructions after those that are pending, unless the declarations are sealed. -/
def add? (declarations : Declarations η) (more : List (Instruction η)) :
    Option (Declarations η) :=
  if hsealed : declarations.sealed = true then none
  else some { declarations with
    pending := declarations.pending ++ more
    pending_eq_nil := fun h => absurd h hsealed }

/-- Moves the pending instructions into use, if they are used for the first time. -/
def use (declarations : Declarations η) : Declarations η :=
  match declarations.inUse with
  | some _ => declarations
  | none => { pending := [], sealed := true, inUse := some declarations.pending }

/-- The instructions that are in use, or will be. -/
def instructions (declarations : Declarations η) : List (Instruction η) :=
  declarations.inUse.getD declarations.pending

/-- Whether the instructions are in use. -/
def used (declarations : Declarations η) : Bool :=
  declarations.inUse.isSome

theorem add?_eq_none {declarations : Declarations η} (h : declarations.used = true)
    (more : List (Instruction η)) : declarations.add? more = none :=
  dif_pos (declarations.sealed_eq.trans h)

theorem add?_eq_some {declarations : Declarations η} (h : declarations.used = false)
    (more : List (Instruction η)) :
    ∃ added, declarations.add? more = some added ∧ added.used = false
      ∧ added.instructions = declarations.instructions ++ more := by
  have hsealed : ¬ declarations.sealed = true := by
    rw [declarations.sealed_eq]
    exact Bool.eq_false_iff.1 h
  have hinUse : declarations.inUse = none := Option.not_isSome_iff_eq_none.1 (Bool.eq_false_iff.1 h)
  refine ⟨_, dif_neg hsealed, h, ?_⟩
  simp only [instructions, hinUse, Option.getD_none]

@[simp] theorem used_use (declarations : Declarations η) : declarations.use.used = true := by
  rw [use, used]
  split
  · rename_i hinUse
    rw [hinUse]
    rfl
  · rfl

@[simp] theorem instructions_use (declarations : Declarations η) :
    declarations.use.instructions = declarations.instructions := by
  rw [use]
  split
  · rfl
  · rename_i hinUse
    rw [instructions, instructions, hinUse]
    rfl

end Declarations

/-! ## Operation types -/

/-- What is fixed about an operation. -/
structure OperationType (η τ ι ρ : Type) where
  /-- The name that qualifies the operation's steps, if any. -/
  name : Option String
  /-- The full name of the type. -/
  typeName : String
  /-- The operation's own declaration. -/
  declare : Plan η → Plan η
  /-- The operation's own configuration, on top of the global one. -/
  configure : Config τ ι ρ → Config τ ι ρ

/-- The state shared by all calls of an operation. -/
structure Definition (η τ ι ρ : Type) where
  type : OperationType η τ ι ρ
  declarations : Declarations η
  /-- The configuration, once it was asked for. -/
  config : Option (Config τ ι ρ)

namespace Definition

variable {η τ ι ρ : Type}

/-- The definition of a type that was not used yet. -/
def ofType (type : OperationType η τ ι ρ) : Definition η τ ι ρ :=
  { type, declarations := .ofList (type.declare Plan.empty).instructions, config := none }

/-! ## Instructions -/

/-- The declared instructions, in order. -/
def instructions (definition : Definition η τ ι ρ) : List (Instruction η) :=
  definition.declarations.instructions

/-- Whether the instructions were used, after which none can be added. -/
def frozen (definition : Definition η τ ι ρ) : Bool :=
  definition.declarations.used

/-- Adds the instructions that `declare` declares, unless the definition is frozen. -/
def declare (definition : Definition η τ ι ρ) (declare : Plan η → Plan η) :
    Except EngineError (Definition η τ ι ρ) :=
  match definition.declarations.add? (declare Plan.empty).instructions with
  | none => .error (.definitionFrozen definition.type.typeName)
  | some declarations => .ok { definition with declarations }

/-- Rules out further declarations. -/
def freeze (definition : Definition η τ ι ρ) : Definition η τ ι ρ :=
  { definition with declarations := definition.declarations.use }

/-- The outlines of the instructions. -/
def outline (definition : Definition η τ ι ρ) : Json :=
  .array (Instruction.outlineAll definition.instructions)

/-! ## Configuration -/

/-- The configuration: the one in use, or else what the type makes of the global one. -/
def configIn (definition : Definition η τ ι ρ) (global : Config τ ι ρ) : Config τ ι ρ :=
  definition.config.getD (definition.type.configure global)

/-- Keeps the configuration from now on. -/
def pin (definition : Definition η τ ι ρ) (global : Config τ ι ρ) : Definition η τ ι ρ :=
  { definition with config := some (definition.configIn global) }

/-- Edits the configuration. Whether or not the edit is let through, the configuration is kept from
    now on. -/
def configure (definition : Definition η τ ι ρ) (global : Config τ ι ρ)
    (edit : Config τ ι ρ → Config τ ι ρ) : Except EngineError Unit × Definition η τ ι ρ :=
  match (definition.configIn global).edited edit with
  | .error error => (.error error, definition.pin global)
  | .ok config => (.ok (), { definition with config := some config })

/-- The definition for inspection. -/
def inspected (definition : Definition η τ ι ρ) : String :=
  let config := match definition.config with
    | some config => "Some(" ++ config.inspected ++ ")"
    | none => "None"
  "Definition \x7b operation: " ++ Text.quoted definition.type.typeName
    ++ ", frozen: " ++ Text.truth definition.frozen
    ++ ", config: " ++ config ++ " \x7d"

/-! ## The life cycle -/

theorem declare_of_frozen {definition : Definition η τ ι ρ} (h : definition.frozen = true)
    (script : Plan η → Plan η) :
    definition.declare script = .error (.definitionFrozen definition.type.typeName) := by
  rw [declare, Declarations.add?_eq_none h]

/-- A declaration that is let through adds its instructions at the end. -/
theorem declare_of_not_frozen {definition : Definition η τ ι ρ} (h : definition.frozen = false)
    (script : Plan η → Plan η) :
    ∃ declared, definition.declare script = .ok declared ∧ declared.type = definition.type
      ∧ declared.frozen = false
      ∧ declared.instructions = definition.instructions ++ (script Plan.empty).instructions := by
  obtain ⟨declarations, hadd, hused, hinstructions⟩ :=
    Declarations.add?_eq_some h (script Plan.empty).instructions
  refine ⟨{ definition with declarations }, ?_, rfl, hused, hinstructions⟩
  rw [declare, hadd]

@[simp] theorem frozen_freeze (definition : Definition η τ ι ρ) :
    definition.freeze.frozen = true := Declarations.used_use _

@[simp] theorem instructions_freeze (definition : Definition η τ ι ρ) :
    definition.freeze.instructions = definition.instructions := Declarations.instructions_use _

@[simp] theorem configIn_pin (definition : Definition η τ ι ρ) (global later : Config τ ι ρ) :
    (definition.pin global).configIn later = definition.configIn global := rfl

/-- Whether or not an edit of the configuration is let through, the declarations stay. -/
theorem configure_keeps (definition : Definition η τ ι ρ) (global : Config τ ι ρ)
    (edit : Config τ ι ρ → Config τ ι ρ) :
    (definition.configure global edit).2.type = definition.type
      ∧ (definition.configure global edit).2.declarations = definition.declarations := by
  rw [configure]
  split <;> exact ⟨rfl, rfl⟩

end Definition

end OperationPipeline

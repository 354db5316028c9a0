import OperationPipeline.Proofs.Scripted

set_option autoImplicit false

/-! # The life cycle of declarations

The instructions of an operation come into use when they are listed, when they are outlined or when
the operation is called for the first time. Until then everything that is declared is added at the
end of what its type declares, and from then on nothing is. So a step of a history takes the
definition of an operation further in one of two ways at most (`Access.Advances`), and over a whole
history these add up (`Engine.declares_until_used`). -/

namespace OperationPipeline

variable {κ η τ ι ρ ω : Type} [DecidableEq κ]

/-! ## What an access means for an operation -/

namespace Access

/-- Whether the access brings the instructions of an operation into use. -/
def uses (key : κ) : Access κ η τ ι ρ → Bool
  | .instructions other _ | .outline other _ | .call other _ _ => decide (other = key)
  | _ => false

/-- The instructions that the access adds to an operation. -/
def adds (key : κ) : Access κ η τ ι ρ → List (Instruction η)
  | .declare other script (.ok ()) =>
    if other = key then (script Plan.empty).instructions else []
  | _ => []

/-- Whether the instructions of an operation, as far as the access shows them, are the given
    ones. -/
def Shows (key : κ) (list : List (Instruction η)) : Access κ η τ ι ρ → Prop
  | .instructions other found | .call other found _ => other = key → found = list
  | .outline other found => other = key → found = .array (Instruction.outlineAll list)
  | _ => True

/-- Only accesses that use an operation show its instructions. -/
theorem shows_of_not_uses {key : κ} {access : Access κ η τ ι ρ} (h : access.uses key = false)
    (list : List (Instruction η)) : access.Shows key list := by
  cases access with
  | instructions other _ => exact fun hother => absurd hother (of_decide_eq_false h)
  | outline other _ => exact fun hother => absurd hother (of_decide_eq_false h)
  | call other _ _ => exact fun hother => absurd hother (of_decide_eq_false h)
  | _ => trivial

/-- Whether a definition comes from another one by the access: what the access adds is at the end,
    and nothing is added any more once it was used. -/
structure Advances (access : Access κ η τ ι ρ) (key : κ) (before after : Definition η τ ι ρ) :
    Prop where
  type : after.type = before.type
  frozen : after.frozen = (before.frozen || access.uses key)
  instructions : after.instructions = before.instructions ++ access.adds key
  closed : before.frozen = true → access.adds key = []

namespace Advances

variable {access : Access κ η τ ι ρ} {key : κ} {definition after : Definition η τ ι ρ}

/-- An access that neither uses an operation nor adds to it may change its configuration only. -/
theorem of_idle (huses : access.uses key = false) (hadds : access.adds key = [])
    (htype : after.type = definition.type)
    (hdeclarations : after.declarations = definition.declarations) :
    access.Advances key definition after where
  type := htype
  frozen := by
    rw [Definition.frozen, Definition.frozen, hdeclarations, huses, Bool.or_false]
  instructions := by
    rw [Definition.instructions, Definition.instructions, hdeclarations, hadds, List.append_nil]
  closed _ := hadds

/-- An access that uses an operation freezes its definition. -/
theorem of_use (huses : access.uses key = true) (hadds : access.adds key = [])
    (htype : after.type = definition.type)
    (hdeclarations : after.declarations = definition.freeze.declarations) :
    access.Advances key definition after where
  type := htype
  frozen := by
    have hfrozen := definition.frozen_freeze
    rw [Definition.frozen] at hfrozen ⊢
    rw [hdeclarations, hfrozen, huses, Bool.or_true]
  instructions := by
    have hinstructions := definition.instructions_freeze
    rw [Definition.instructions] at hinstructions ⊢
    rw [hdeclarations, hinstructions, hadds, List.append_nil]
  closed _ := hadds

end Advances

end Access

namespace Engine

variable {engine : Engine κ η τ ι ρ ω} {start mid host host' : Host κ η τ ι ρ ω}
  {access : Access κ η τ ι ρ} {accesses : List (Access κ η τ ι ρ)}

/-! ## Declaring -/

/-- A definition that is not as its type makes it is stored. -/
theorem find?_of_ne_ofType {key : κ}
    (h : engine.definition key host ≠ .ofType (engine.catalogue key)) :
    host.registry.find? key = some (engine.definition key host) := by
  rw [Engine.definition] at h ⊢
  cases hfind : host.registry.find? key with
  | none =>
    rw [hfind] at h
    exact absurd rfl h
  | some definition => rfl

theorem find?_of_frozen {key : κ} (h : engine.isFrozen key host = true) :
    host.registry.find? key = some (engine.definition key host) := by
  refine find?_of_ne_ofType fun hfresh => ?_
  rw [isFrozen, hfresh] at h
  cases h

/-- A declaration that is refused changes nothing. -/
theorem declare_of_frozen {key : κ} (h : engine.isFrozen key host = true)
    (script : Plan η → Plan η) :
    engine.declare key script host
      = (.error (.definitionFrozen (engine.definition key host).type.typeName), host) := by
  rw [declare, Definition.declare_of_frozen h]
  dsimp only
  rw [keep, Registry.put_of_find? (find?_of_frozen h)]

/-! ## One access -/

/-- Storing a definition has its effect on that operation only. -/
theorem definition_keep_cases {motive : Definition η τ ι ρ → Prop} {key other : κ}
    {after : Definition η τ ι ρ} (hself : other = key → motive after)
    (hother : other ≠ key → motive (engine.definition key host)) :
    motive (engine.definition key (keep other after host)) := by
  rw [definition_keep]
  by_cases hkey : other = key
  · rw [if_pos hkey]
    exact hself hkey
  · rw [if_neg hkey]
    exact hother hkey

theorem definition_configureGlobal (engine : Engine κ η τ ι ρ ω) (key : κ)
    (edit : Config τ ι ρ → Config τ ι ρ) (host : Host κ η τ ι ρ ω) :
    engine.definition key (configureGlobal edit host).2 = engine.definition key host := by
  rw [configureGlobal]
  split <;> rfl

theorem advances_keep {key other : κ} {after : Definition η τ ι ρ}
    (hother : other ≠ key → access.uses key = false ∧ access.adds key = [])
    (hself : other = key → access.Advances key (engine.definition key host) after) :
    access.Advances key (engine.definition key host)
      (engine.definition key (keep other after host)) :=
  definition_keep_cases hself fun hkey => .of_idle (hother hkey).1 (hother hkey).2 rfl rfl

theorem advances_of_use {key other : κ} {after : Definition η τ ι ρ}
    (huses : access.uses key = decide (other = key)) (hadds : access.adds key = [])
    (htype : after.type = (engine.definition other host).type)
    (hdeclarations : after.declarations = (engine.definition other host).freeze.declarations) :
    access.Advances key (engine.definition key host)
      (engine.definition key (keep other after host)) := by
  refine advances_keep (fun hkey => ⟨huses.trans (decide_eq_false hkey), hadds⟩) fun hkey => ?_
  subst hkey
  exact .of_use (huses.trans (decide_eq_true rfl)) hadds htype hdeclarations

theorem advances_of_idle {key other : κ} {after : Definition η τ ι ρ}
    (huses : access.uses key = false) (hadds : access.adds key = [])
    (htype : after.type = (engine.definition other host).type)
    (hdeclarations : after.declarations = (engine.definition other host).declarations) :
    access.Advances key (engine.definition key host)
      (engine.definition key (keep other after host)) := by
  refine advances_keep (fun _ => ⟨huses, hadds⟩) fun hkey => ?_
  subst hkey
  exact .of_idle huses hadds htype hdeclarations

/-- Declaring adds at the end of what was declared, unless it is refused. -/
theorem advances_declare (engine : Engine κ η τ ι ρ ω) (key other : κ)
    (script : Plan η → Plan η) (host : Host κ η τ ι ρ ω) :
    (Access.declare other script (engine.declare other script host).1).Advances key
      (engine.definition key host)
      (engine.definition key (engine.declare other script host).2) := by
  cases hfrozen : engine.isFrozen other host with
  | true =>
    rw [declare_of_frozen hfrozen]
    exact .of_idle rfl rfl rfl rfl
  | false =>
    obtain ⟨declared, hdeclare, htype, hdeclared, hinstructions⟩ :=
      Definition.declare_of_not_frozen hfrozen script
    simp only [declare, hdeclare]
    refine advances_keep (fun hkey => ⟨rfl, if_neg hkey⟩) fun hkey => ?_
    subst hkey
    exact {
      type := htype
      frozen := hdeclared.trans ((Bool.or_false _).trans hfrozen).symm
      instructions := hinstructions.trans (congrArg _ (if_pos rfl).symm)
      closed := fun h => absurd (hfrozen.symm.trans h) Bool.false_ne_true }

/-- What an access does to the definition of an operation. -/
theorem Step.advances (h : engine.Step host access host') (key : κ) :
    access.Advances key (engine.definition key host) (engine.definition key host') := by
  cases h with
  | declare other script => exact advances_declare engine key other script host
  | instructions other => exact advances_of_use rfl rfl rfl rfl
  | outline other => exact advances_of_use rfl rfl rfl rfl
  | isFrozen other => exact .of_idle rfl rfl rfl rfl
  | config other => exact advances_of_idle rfl rfl rfl rfl
  | configure other edit =>
    obtain ⟨htype, hdeclarations⟩ :=
      (engine.definition other host).configure_keeps host.registry.global edit
    exact advances_of_idle rfl rfl htype hdeclarations
  | configureGlobal edit =>
    rw [definition_configureGlobal]
    exact .of_idle rfl rfl rfl rfl
  | resetGlobal => exact .of_idle rfl rfl rfl rfl
  | call other => exact advances_of_use rfl rfl rfl rfl

/-- An access that shows the instructions of an operation shows those that it leaves. -/
theorem Step.shows (h : engine.Step host access host') (key : κ) :
    access.Shows key (engine.definition key host').instructions := by
  cases h with
  | instructions other =>
    intro hkey
    subst hkey
    rw [Engine.instructions, definition_keep, if_pos rfl]
  | outline other =>
    intro hkey
    subst hkey
    rw [Engine.outline, definition_keep, if_pos rfl]
    rfl
  | call other =>
    intro hkey
    subst hkey
    rw [begun, definition_keep, if_pos rfl]
    exact (Definition.instructions_freeze _).symm
  | _ => trivial

/-! ## Whole histories -/

/-- Whether the definition of an operation is what the accesses make of its type. -/
structure Declares (engine : Engine κ η τ ι ρ ω) (key : κ) (accesses : List (Access κ η τ ι ρ))
    (host : Host κ η τ ι ρ ω) : Prop where
  type : (engine.definition key host).type = engine.catalogue key
  frozen : engine.isFrozen key host = accesses.any (·.uses key)
  instructions : (engine.definition key host).instructions
    = ((engine.catalogue key).declare Plan.empty).instructions ++ accesses.flatMap (·.adds key)
  shows : ∀ access ∈ accesses, access.Shows key (engine.definition key host).instructions

namespace Declares

theorem fresh {key : κ} (h : host.registry.find? key = none) : engine.Declares key [] host := by
  have hdefinition : engine.definition key host = .ofType (engine.catalogue key) := by
    rw [Engine.definition, h]
    rfl
  constructor
  · rw [hdefinition]
    rfl
  · rw [Engine.isFrozen, hdefinition]
    rfl
  · rw [hdefinition]
    exact (List.append_nil _).symm
  · exact List.forall_mem_nil _

theorem outside {key : κ} (h : engine.Declares key accesses host) (world : ω) :
    engine.Declares key accesses { host with outside := world } :=
  ⟨h.type, h.frozen, h.instructions, h.shows⟩

theorem snoc {key : κ} (h : engine.Declares key accesses mid)
    (hstep : engine.Step mid access host) : engine.Declares key (accesses ++ [access]) host := by
  obtain ⟨htype, hfrozen, hinstructions, hclosed⟩ := hstep.advances key
  constructor
  · exact htype.trans h.type
  · rw [List.any_append, List.any_cons, List.any_nil, Bool.or_false, ← h.frozen]
    exact hfrozen
  · rw [hinstructions, h.instructions, List.flatMap_append, List.flatMap_singleton,
      List.append_assoc]
  · refine List.forall_mem_append.2 ⟨fun earlier hearlier => ?_, ?_⟩
    · -- an earlier access that shows the instructions has ruled out that any are added now
      cases huses : earlier.uses key with
      | false => exact Access.shows_of_not_uses huses _
      | true =>
        have hused : (engine.definition key mid).frozen = true :=
          h.frozen.trans (List.any_eq_true.2 ⟨earlier, hearlier, huses⟩)
        rw [hinstructions, hclosed hused, List.append_nil]
        exact h.shows earlier hearlier
    · exact List.forall_mem_singleton.2 (hstep.shows key)

end Declares

theorem History.declares {key : κ} (h : engine.History start accesses host)
    (hfresh : start.registry.find? key = none) : engine.Declares key accesses host := by
  induction h with
  | nil => exact .fresh hfresh
  | outside h world ih => exact ih.outside world
  | snoc h hstep ih => exact ih.snoc hstep

/-- Once the instructions of an operation are in use, nothing is added. -/
theorem History.adds_eq_nil {key : κ} (h : engine.History start accesses host)
    (hfrozen : engine.isFrozen key start = true) :
    engine.isFrozen key host = true ∧ accesses.flatMap (·.adds key) = [] := by
  induction h with
  | nil => exact ⟨hfrozen, rfl⟩
  | outside h world ih => exact ih
  | snoc h hstep ih =>
    obtain ⟨hmid, hnone⟩ := ih
    have hadvances := hstep.advances key
    refine ⟨?_, ?_⟩
    · rw [isFrozen, hadvances.frozen, Bool.or_eq_true]
      exact Or.inl hmid
    · rw [List.flatMap_append, hnone, List.flatMap_singleton, hadvances.closed hmid,
        List.append_nil]

/-- The life cycle of an operation. Take any history that starts where the operation was not used
    yet. Declarations are accepted exactly as long as the history has not listed, outlined or called
    the operation; one that is refused changes nothing. The instructions are those of the type,
    followed by those of all declarations that were accepted, in the order in which they were, and
    once they were used none is added any more. So each access that shows them shows the same list;
    and so does a whole call, whose handlers may do anything with operations in the meantime, and
    which continues the history however it ends. -/
theorem declares_until_used (hengine : engine.Orderly) (key : κ)
    (hfresh : start.registry.find? key = none) (h : engine.History start accesses host) :
    let type := engine.catalogue key
    let used := accesses.any (·.uses key)
    let list := (type.declare Plan.empty).instructions ++ accesses.flatMap (·.adds key)
    (∀ script, (engine.declare key script host).1
        = if used then .error (.definitionFrozen type.typeName) else .ok ())
      ∧ (used = true → ∀ script, (engine.declare key script host).2 = host)
      ∧ engine.isFrozen key host = used
      ∧ (engine.instructions key host).1 = list
      ∧ (engine.outline key host).1 = .array (Instruction.outlineAll list)
      ∧ (∀ arguments, ∃ config inner,
        engine.call key arguments host
            = (engine.setting type config).perform (Instruction.mapAll engine.handler list)
                arguments (engine.begun key host)
          ∧ engine.History start (accesses ++ .call key list config :: inner)
            (engine.call key arguments host).2)
      ∧ (∀ access ∈ accesses, access.Shows key list)
      ∧ (used = true → ∀ later host', engine.History host later host' →
        later.flatMap (·.adds key) = []) := by
  intro type used list
  obtain ⟨htype, hfrozen, hinstructions, hshows⟩ := h.declares hfresh
  rw [hinstructions] at hshows
  refine ⟨fun script => ?_, fun hused script => ?_, hfrozen, ?_, ?_, fun arguments => ?_, hshows,
    fun hused later host' hlater => ?_⟩
  · cases hused : used with
    | true =>
      rw [declare_of_frozen (hfrozen.trans hused), htype]
      rfl
    | false =>
      obtain ⟨declared, hdeclare, -⟩ :=
        Definition.declare_of_not_frozen (hfrozen.trans hused) script
      rw [declare, hdeclare]
      rfl
  · rw [declare_of_frozen (hfrozen.trans hused)]
  · exact (Definition.instructions_freeze _).trans hinstructions
  · have hlist := (Definition.instructions_freeze _).trans hinstructions
    exact congrArg (fun list => Json.array (Instruction.outlineAll list)) hlist
  · obtain ⟨inner, hcall⟩ := h.call hengine key arguments
    have hperform := engine.call_eq key arguments host
    rw [hinstructions] at hcall
    rw [hinstructions, htype] at hperform
    exact ⟨_, inner, hperform, hcall⟩
  · exact (hlater.adds_eq_nil (hfrozen.trans hused)).2

end Engine

namespace Script

/-- A step that does nothing. -/
def idleStep : Step := .script [] (.given .nothing)

/-- A step that declares another one for its own operation. -/
def extendStep : Step :=
  .script [.declare "Order" [.single .step "late" idleStep]] (.given .nothing)

/-- Operations with that step. -/
def extending : ScriptEngine :=
  engineAt (fun _ => ([], .given .nothing))
    (fun key =>
      { name := none, typeName := key, declare := (·.step "extend" extendStep), configure := id }) 1

/-- A step can be added before the call, but neither during the call nor after it. -/
theorem extends_before_call :
    let start : Stage := { outside := {} }
    let script : Plan Step → Plan Step := (·.step "ship" idleStep)
    let declared := (extending.declare "Order" script start).2
    let called := (extending.call "Order" {} declared).2
    extending.Orderly ∧ start.registry.find? "Order" = none
      ∧ extending.History start [.declare "Order" script (.ok ())] declared
      ∧ (extending.declare "Order" script called).1 = .error (.definitionFrozen "Order")
      ∧ (extending.instructions "Order" called).1
        = [.leaf .step "extend" extendStep, .leaf .step "ship" idleStep] := by
  intro start script declared called
  have horderly : extending.Orderly := orderly_engineAt _ _ 1
  have hdeclared : extending.History start [.declare "Order" script (.ok ())] declared :=
    .single (.declare "Order" script start)
  obtain ⟨-, -, -, -, -, hcalls, -, -⟩ :=
    Engine.declares_until_used horderly "Order" rfl hdeclared
  obtain ⟨config, inner, -, hcalled⟩ := hcalls {}
  obtain ⟨hdeclare, -, -, hinstructions, -, -, hshows, -⟩ :=
    Engine.declares_until_used horderly "Order" rfl hcalled
  have hcall : .call "Order" [.leaf .step "extend" extendStep, .leaf .step "ship" idleStep] config
      ∈ [.declare "Order" script (.ok ())] ++ .call "Order" _ config :: inner :=
    List.mem_append_right _ List.mem_cons_self
  -- the call has shown the list as it is ever after
  have hlist := hshows _ hcall rfl
  refine ⟨horderly, rfl, hdeclared, (hdeclare script).trans (if_pos ?_),
    hinstructions.trans hlist.symm⟩
  exact List.any_eq_true.2 ⟨_, hcall, decide_eq_true (rfl : "Order" = "Order")⟩

end Script

end OperationPipeline

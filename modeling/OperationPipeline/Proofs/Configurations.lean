import Mathlib.Data.List.TakeWhile
import OperationPipeline.Proofs.LifeCycle

set_option autoImplicit false

/-! # Configurations in a history

An operation has a configuration of its own from the first access that asks for one: one that reads
it, one that edits it, whether or not the edit is let through, or a call. Until then it would be
what the type makes of the global configuration of the moment; from then on only edits that are let
through change it. `Step.configured` says so of one access, `History.configured` and
`History.config_of_some` of a whole history. -/

namespace OperationPipeline

variable {κ η τ ι ρ ω : Type}

/-! ## Edits in turn -/

/-- The configuration after several edits in turn. -/
def Config.editAll (edits : List (Config τ ι ρ → Config τ ι ρ)) (config : Config τ ι ρ) :
    Config τ ι ρ :=
  edits.foldl (fun config edit => edit config) config

theorem Config.editAll_append (edits later : List (Config τ ι ρ → Config τ ι ρ))
    (config : Config τ ι ρ) :
    editAll (edits ++ later) config = editAll later (editAll edits config) :=
  List.foldl_append

namespace Access

/-- The global configuration after the access. -/
def editGlobal (global : Config τ ι ρ) : Access κ η τ ι ρ → Config τ ι ρ
  | .configureGlobal edit (.ok ()) => edit global
  | .resetGlobal => {}
  | _ => global

/-- The global configuration after accesses. -/
def globalAfter (global : Config τ ι ρ) (accesses : List (Access κ η τ ι ρ)) : Config τ ι ρ :=
  accesses.foldl editGlobal global

theorem globalAfter_snoc (global : Config τ ι ρ) (accesses : List (Access κ η τ ι ρ))
    (access : Access κ η τ ι ρ) :
    globalAfter global (accesses ++ [access]) = access.editGlobal (globalAfter global accesses) :=
  List.foldl_append

end Access

/-- A global edit is let through if it leaves a valid configuration; otherwise nothing happens. -/
theorem Engine.configureGlobal_eq (edit : Config τ ι ρ → Config τ ι ρ)
    (host : Host κ η τ ι ρ ω) :
    configureGlobal edit host
      = match (edit host.registry.global).validate with
        | .ok () => (.ok (),
            { host with registry := { host.registry with global := edit host.registry.global } })
        | .error error => (.error error, host) := by
  rw [configureGlobal, Config.edited]
  cases (edit host.registry.global).validate <;> rfl

/-- An edit is let through if it leaves a valid configuration; otherwise it is as if the
    configuration had been read. -/
theorem Definition.configure_eq (definition : Definition η τ ι ρ) (global : Config τ ι ρ)
    (edit : Config τ ι ρ → Config τ ι ρ) :
    definition.configure global edit
      = match (edit (definition.configIn global)).validate with
        | .ok () => (.ok (), { definition with config := some (edit (definition.configIn global)) })
        | .error error => (.error error, definition.pin global) := by
  rw [configure, Config.edited]
  cases (edit (definition.configIn global)).validate <;> rfl

theorem Definition.config_of_declare {definition declared : Definition η τ ι ρ}
    {script : Plan η → Plan η} (h : definition.declare script = .ok declared) :
    declared.config = definition.config := by
  rw [declare] at h
  split at h
  · cases h
  · rw [← Except.ok.inj h]

variable [DecidableEq κ]

/-! ## What an access means for configurations -/

namespace Access

/-- Whether the access asks for the configuration of an operation. -/
def configures (key : κ) : Access κ η τ ι ρ → Bool
  | .config other _ | .configure other _ _ | .call other _ _ => decide (other = key)
  | _ => false

/-- The edit of an operation's configuration that the access lets through, if it does. -/
def edits (key : κ) : Access κ η τ ι ρ → List (Config τ ι ρ → Config τ ι ρ)
  | .configure other edit (.ok ()) => if other = key then [edit] else []
  | _ => []

/-- Whether the configuration of an operation, as far as the access shows it, is the given one. -/
def ShowsConfig (key : κ) (config : Config τ ι ρ) : Access κ η τ ι ρ → Prop
  | .config other shown | .call other _ shown => other = key → shown = config
  | _ => True

theorem edits_of_not_configures {key : κ} {access : Access κ η τ ι ρ}
    (h : access.configures key = false) : access.edits key = [] := by
  cases access with
  | configure other edit answer =>
    cases answer with
    | ok u => exact if_neg (of_decide_eq_false h)
    | error error => rfl
  | _ => rfl

/-- Whether a definition comes from another one by the access, as far as its configuration goes. -/
structure Configured (access : Access κ η τ ι ρ) (key : κ) (global : Config τ ι ρ)
    (before after : Definition η τ ι ρ) : Prop where
  config : after.config =
    if access.configures key then
      some (Config.editAll (access.edits key) (before.configIn global))
    else before.config
  valid : access.edits key ≠ [] →
    (Config.editAll (access.edits key) (before.configIn global)).validate = .ok ()

namespace Configured

variable {access : Access κ η τ ι ρ} {key : κ} {global : Config τ ι ρ}
  {before after : Definition η τ ι ρ}

/-- An access that does not ask for the configuration leaves it as it is. -/
theorem of_idle (h : access.configures key = false) (hconfig : after.config = before.config) :
    access.Configured key global before after where
  config := by
    rw [h, hconfig]
    rfl
  valid hedits := absurd (edits_of_not_configures h) hedits

/-- An access that asks for the configuration without changing it is the last to see the global
    one. -/
theorem of_pin (h : access.configures key = true) (hedits : access.edits key = [])
    (hconfig : after.config = some (before.configIn global)) :
    access.Configured key global before after where
  config := by
    rw [h, hedits, hconfig]
    rfl
  valid hsome := absurd hedits hsome

end Configured

/-! ### Several accesses -/

/-- The configuration of an operation after accesses: what its type makes of the global
    configuration as it is at the first access that asks for the operation's own, with all edits
    that are let through. -/
def configAfter (key : κ) (type : OperationType η τ ι ρ) (global : Config τ ι ρ)
    (accesses : List (Access κ η τ ι ρ)) : Config τ ι ρ :=
  Config.editAll (accesses.flatMap (·.edits key))
    (type.configure (globalAfter global (accesses.takeWhile fun access => !access.configures key)))

variable {key : κ} {type : OperationType η τ ι ρ} {global : Config τ ι ρ}
  {accesses : List (Access κ η τ ι ρ)}

/-- Until an operation's configuration is asked for, it is what the type makes of the global one. -/
theorem configAfter_of_idle (h : accesses.any (·.configures key) = false) :
    configAfter key type global accesses = type.configure (globalAfter global accesses) := by
  have hidle : ∀ access ∈ accesses, access.configures key = false := by
    intro access haccess
    exact Bool.eq_false_iff.2 (List.any_eq_false.1 h access haccess)
  have hedits : accesses.flatMap (·.edits key) = [] :=
    List.flatMap_eq_nil_iff.2 fun access haccess =>
      edits_of_not_configures (hidle access haccess)
  have hall : accesses.takeWhile (fun access => !access.configures key) = accesses :=
    List.takeWhile_eq_self_iff.2 fun access haccess => by rw [hidle access haccess]; rfl
  rw [configAfter, hedits, hall]
  rfl

/-- Once the configuration is asked for, no later access comes before the first that does so. -/
theorem takeWhile_append_of_configures {access : Access κ η τ ι ρ}
    (h : accesses.any (·.configures key) = true ∨ access.configures key = true)
    (later : List (Access κ η τ ι ρ)) :
    (accesses ++ access :: later).takeWhile (fun access => !access.configures key)
      = accesses.takeWhile fun access => !access.configures key := by
  rw [List.takeWhile_append]
  split
  · rename_i hlength
    -- none of the accesses so far asks for the configuration, so the one after them does
    have hidle := (List.takeWhile_prefix _).eq_of_length hlength
    have haccess : access.configures key = true := by
      refine h.resolve_left fun hany => ?_
      obtain ⟨first, hfirst, hconfigures⟩ := List.any_eq_true.1 hany
      have hnot := List.takeWhile_eq_self_iff.1 hidle first hfirst
      rw [hconfigures] at hnot
      exact nomatch hnot
    rw [List.takeWhile_cons_of_neg (by rw [haccess]; nofun), List.append_nil, hidle]
  · rfl

/-- Once the configuration is asked for, only edits that are let through make a difference. -/
theorem configAfter_append {access : Access κ η τ ι ρ}
    (h : accesses.any (·.configures key) = true ∨ access.configures key = true)
    (later : List (Access κ η τ ι ρ)) :
    configAfter key type global (accesses ++ access :: later)
      = Config.editAll ((access :: later).flatMap (·.edits key))
          (configAfter key type global accesses) := by
  rw [configAfter, takeWhile_append_of_configures h, List.flatMap_append, Config.editAll_append]
  rfl

end Access

/-! ## One access -/

namespace Engine

variable {engine : Engine κ η τ ι ρ ω} {start host host' : Host κ η τ ι ρ ω}
  {access : Access κ η τ ι ρ} {accesses : List (Access κ η τ ι ρ)}

theorem configured_keep {key other : κ} {after : Definition η τ ι ρ} {global : Config τ ι ρ}
    (hother : other ≠ key → access.configures key = false)
    (hself : other = key → access.Configured key global (engine.definition key host) after) :
    access.Configured key global (engine.definition key host)
      (engine.definition key (keep other after host)) :=
  definition_keep_cases hself fun hkey => .of_idle (hother hkey) rfl

theorem configured_of_idle {key other : κ} {after : Definition η τ ι ρ} {global : Config τ ι ρ}
    (h : access.configures key = false)
    (hconfig : after.config = (engine.definition other host).config) :
    access.Configured key global (engine.definition key host)
      (engine.definition key (keep other after host)) := by
  refine configured_keep (fun _ => h) fun hkey => ?_
  subst hkey
  exact .of_idle h hconfig

theorem configured_of_pin {key other : κ} {after : Definition η τ ι ρ} {global : Config τ ι ρ}
    (h : access.configures key = decide (other = key)) (hedits : access.edits key = [])
    (hconfig : after.config = some ((engine.definition other host).configIn global)) :
    access.Configured key global (engine.definition key host)
      (engine.definition key (keep other after host)) := by
  refine configured_keep (fun hkey => h.trans (decide_eq_false hkey)) fun hkey => ?_
  subst hkey
  exact .of_pin (h.trans (decide_eq_true rfl)) hedits hconfig

theorem configured_configure (engine : Engine κ η τ ι ρ ω) (key other : κ)
    (edit : Config τ ι ρ → Config τ ι ρ) (host : Host κ η τ ι ρ ω) :
    (Access.configure other edit (engine.configure other edit host).1).Configured key
      host.registry.global (engine.definition key host)
      (engine.definition key (engine.configure other edit host).2) := by
  rw [configure, Definition.configure_eq]
  cases hvalid : (edit ((engine.definition other host).configIn host.registry.global)).validate with
  | error error => exact configured_of_pin rfl rfl rfl
  | ok u =>
    refine configured_keep (fun hkey => decide_eq_false hkey) fun hkey => ?_
    subst hkey
    let access : Access κ η τ ι ρ := .configure other edit (.ok ())
    have hedits : access.edits other = [edit] := if_pos rfl
    have hconfigures : access.configures other = true := decide_eq_true rfl
    constructor
    · rw [if_pos hconfigures, hedits]
      rfl
    · intro _
      rw [hedits]
      exact hvalid

theorem configured_declare (engine : Engine κ η τ ι ρ ω) (key other : κ)
    (script : Plan η → Plan η) (host : Host κ η τ ι ρ ω) :
    (.declare other script (engine.declare other script host).1 :
        Access κ η τ ι ρ).Configured key host.registry.global
      (engine.definition key host)
      (engine.definition key (engine.declare other script host).2) := by
  rw [declare]
  split
  · rename_i declared hdeclared
    exact configured_of_idle rfl (Definition.config_of_declare hdeclared)
  · exact configured_of_idle rfl rfl

/-- What an access does to the configuration of an operation. -/
theorem Step.configured (h : engine.Step host access host') (key : κ) :
    access.Configured key host.registry.global (engine.definition key host)
      (engine.definition key host') := by
  cases h with
  | declare other script => exact configured_declare engine key other script host
  | instructions other => exact configured_of_idle rfl rfl
  | outline other => exact configured_of_idle rfl rfl
  | isFrozen other => exact .of_idle rfl rfl
  | config other => exact configured_of_pin rfl rfl rfl
  | configure other edit => exact configured_configure engine key other edit host
  | configureGlobal edit =>
    rw [definition_configureGlobal]
    exact .of_idle rfl rfl
  | resetGlobal => exact .of_idle rfl rfl
  | call other => exact configured_of_pin rfl rfl rfl

/-- What an access does to the global configuration. -/
theorem Step.global (h : engine.Step host access host') :
    host'.registry.global = access.editGlobal host.registry.global
      ∧ (host.registry.global.validate = .ok () → host'.registry.global.validate = .ok ()) := by
  cases h with
  | declare other script =>
    have hsame : (engine.declare other script host).2.registry.global = host.registry.global := by
      rw [Engine.declare]
      split <;> rfl
    exact ⟨hsame, fun hvalid => hsame ▸ hvalid⟩
  | configure other edit =>
    have hsame : (engine.configure other edit host).2.registry.global = host.registry.global := rfl
    exact ⟨hsame, fun hvalid => hsame ▸ hvalid⟩
  | configureGlobal edit =>
    rw [configureGlobal_eq]
    cases hvalid : (edit host.registry.global).validate with
    | error error => exact ⟨rfl, id⟩
    | ok u => exact ⟨rfl, fun _ => hvalid⟩
  | resetGlobal => exact ⟨rfl, fun _ => Config.validate_default⟩
  | _ => exact ⟨rfl, id⟩

/-- An access that shows the configuration of an operation shows the one that it finds. -/
theorem Step.showsConfig (h : engine.Step host access host') (key : κ) :
    access.ShowsConfig key
      ((engine.definition key host).configIn host.registry.global) := by
  cases h with
  | config other =>
    intro hkey
    subst hkey
    rfl
  | call other =>
    intro hkey
    subst hkey
    rfl
  | _ => trivial

/-! ## Whole histories -/

/-- Whether the configurations are what the accesses make of the global one at the start. -/
structure Configured (engine : Engine κ η τ ι ρ ω) (key : κ) (initial : Config τ ι ρ)
    (accesses : List (Access κ η τ ι ρ)) (host : Host κ η τ ι ρ ω) : Prop where
  global : host.registry.global = Access.globalAfter initial accesses
  config : (engine.definition key host).config =
    if accesses.any (·.configures key) then
      some (Access.configAfter key (engine.catalogue key) initial accesses)
    else none

namespace Configured

variable {key : κ} {initial : Config τ ι ρ} {mid : Host κ η τ ι ρ ω}

theorem configIn (h : engine.Configured key initial accesses host)
    (htype : (engine.definition key host).type = engine.catalogue key) :
    (engine.definition key host).configIn host.registry.global
      = Access.configAfter key (engine.catalogue key) initial accesses := by
  rw [Definition.configIn, h.config]
  cases hany : accesses.any (·.configures key) with
  | true => rfl
  | false =>
    rw [Access.configAfter_of_idle hany, htype, h.global]
    rfl

theorem snoc (h : engine.Configured key initial accesses mid)
    (htype : (engine.definition key mid).type = engine.catalogue key)
    (hstep : engine.Step mid access host) :
    engine.Configured key initial (accesses ++ [access]) host := by
  constructor
  · rw [hstep.global.1, h.global, Access.globalAfter_snoc]
  · rw [(hstep.configured key).config, h.configIn htype, h.config, List.any_append, List.any_cons,
      List.any_nil, Bool.or_false]
    cases haccess : access.configures key with
    | true =>
      rw [Access.configAfter_append (Or.inr haccess), List.flatMap_singleton, Bool.or_true]
      rfl
    | false =>
      rw [Bool.or_false, if_neg Bool.false_ne_true]
      cases hany : accesses.any (·.configures key) with
      | true =>
        rw [Access.configAfter_append (Or.inl hany), List.flatMap_singleton,
          Access.edits_of_not_configures haccess]
        rfl
      | false => rfl

end Configured

theorem History.configured {key : κ} (h : engine.History start accesses host)
    (hfresh : start.registry.find? key = none) :
    engine.Configured key start.registry.global accesses host := by
  induction h with
  | nil =>
    refine ⟨rfl, ?_⟩
    rw [Engine.definition, hfresh]
    rfl
  | outside h world ih => exact ⟨ih.global, ih.config⟩
  | snoc h hstep ih => exact ih.snoc (h.declares hfresh).type hstep

theorem History.configIn {key : κ} (h : engine.History start accesses host)
    (hfresh : start.registry.find? key = none) :
    (engine.definition key host).configIn host.registry.global
      = Access.configAfter key (engine.catalogue key) start.registry.global accesses :=
  (h.configured hfresh).configIn (h.declares hfresh).type

/-- Once an operation has a configuration, only edits that are let through change it. -/
theorem History.config_of_some {key : κ} {config : Config τ ι ρ}
    (h : engine.History start accesses host)
    (hconfig : (engine.definition key start).config = some config) :
    (engine.definition key host).config
      = some (Config.editAll (accesses.flatMap (·.edits key)) config) := by
  induction h with
  | nil => exact hconfig
  | outside h world ih => exact ih
  | @snoc accesses mid host access h hstep ih =>
    have hconfigIn : (engine.definition key mid).configIn mid.registry.global
        = Config.editAll (accesses.flatMap (·.edits key)) config := by
      rw [Definition.configIn, ih]
      rfl
    rw [(hstep.configured key).config, hconfigIn, List.flatMap_append, List.flatMap_singleton,
      Config.editAll_append, ih]
    cases haccess : access.configures key with
    | true => rfl
    | false =>
      rw [Access.edits_of_not_configures haccess]
      rfl

/-- The global configuration stays valid. -/
theorem History.validGlobal (h : engine.History start accesses host)
    (hvalid : start.registry.global.validate = .ok ()) :
    host.registry.global.validate = .ok () := by
  induction h with
  | nil => exact hvalid
  | outside h world ih => exact ih
  | snoc h hstep ih => exact hstep.global.2 ih

end Engine

end OperationPipeline

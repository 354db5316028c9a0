import OperationPipeline.Proofs.Drift
import OperationPipeline.Registry

set_option autoImplicit false

/-! # Histories

Whatever is done with operations is done through the functions of an engine, be it from outside or
by a handler. A history lists these accesses with the answers that they got. A call is listed when
it begins; what its handlers do with operations comes after it.

If handlers and collaborators touch the registry through an engine only (`Engine.Orderly`), a whole
call is the access with which it begins and further accesses, however it ends
(`Engine.History.call`). -/

namespace OperationPipeline

/-- Something that is done with operations. -/
inductive Access (κ η τ ι ρ : Type) where
  | declare (key : κ) (script : Plan η → Plan η) (answer : Except EngineError Unit)
  | instructions (key : κ) (list : List (Instruction η))
  | outline (key : κ) (outline : Json)
  | isFrozen (key : κ) (answer : Bool)
  | config (key : κ) (config : Config τ ι ρ)
  | configure (key : κ) (edit : Config τ ι ρ → Config τ ι ρ) (answer : Except EngineError Unit)
  | configureGlobal (edit : Config τ ι ρ → Config τ ι ρ) (answer : Except EngineError Unit)
  | resetGlobal
  /-- A call begins, with the instructions and the configuration that it will go by. -/
  | call (key : κ) (instructions : List (Instruction η)) (config : Config τ ι ρ)

namespace Engine

variable {κ η τ ι ρ ω : Type} [DecidableEq κ]

/-- The host in which the handlers of a call start. -/
def begun (engine : Engine κ η τ ι ρ ω) (key : κ) (host : Host κ η τ ι ρ ω) :
    Host κ η τ ι ρ ω :=
  keep key ((engine.definition key host).freeze.pin host.registry.global) host

/-- Whether an access takes one host to another. -/
inductive Step (engine : Engine κ η τ ι ρ ω) :
    Host κ η τ ι ρ ω → Access κ η τ ι ρ → Host κ η τ ι ρ ω → Prop where
  | declare (key : κ) (script : Plan η → Plan η) (host : Host κ η τ ι ρ ω) :
    Step engine host (.declare key script (engine.declare key script host).1)
      (engine.declare key script host).2
  | instructions (key : κ) (host : Host κ η τ ι ρ ω) :
    Step engine host (.instructions key (engine.instructions key host).1)
      (engine.instructions key host).2
  | outline (key : κ) (host : Host κ η τ ι ρ ω) :
    Step engine host (.outline key (engine.outline key host).1) (engine.outline key host).2
  | isFrozen (key : κ) (host : Host κ η τ ι ρ ω) :
    Step engine host (.isFrozen key (engine.isFrozen key host)) host
  | config (key : κ) (host : Host κ η τ ι ρ ω) :
    Step engine host (.config key (engine.config key host).1) (engine.config key host).2
  | configure (key : κ) (edit : Config τ ι ρ → Config τ ι ρ) (host : Host κ η τ ι ρ ω) :
    Step engine host (.configure key edit (engine.configure key edit host).1)
      (engine.configure key edit host).2
  | configureGlobal (edit : Config τ ι ρ → Config τ ι ρ) (host : Host κ η τ ι ρ ω) :
    Step engine host (.configureGlobal edit (configureGlobal edit host).1)
      (configureGlobal edit host).2
  | resetGlobal (host : Host κ η τ ι ρ ω) : Step engine host .resetGlobal (resetGlobal host)
  | call (key : κ) (host : Host κ η τ ι ρ ω) :
    Step engine host
      (.call key (engine.definition key host).instructions
        ((engine.definition key host).configIn host.registry.global))
      (engine.begun key host)

/-- Whether accesses take one host to another. Outside the registry anything may happen in
    between. -/
inductive History (engine : Engine κ η τ ι ρ ω) (start : Host κ η τ ι ρ ω) :
    List (Access κ η τ ι ρ) → Host κ η τ ι ρ ω → Prop where
  | nil : History engine start [] start
  | outside {accesses : List (Access κ η τ ι ρ)} {host : Host κ η τ ι ρ ω}
      (h : History engine start accesses host) (world : ω) :
    History engine start accesses { host with outside := world }
  | snoc {accesses : List (Access κ η τ ι ρ)} {mid host : Host κ η τ ι ρ ω}
      {access : Access κ η τ ι ρ} (h : History engine start accesses mid)
      (hstep : engine.Step mid access host) : History engine start (accesses ++ [access]) host

/-- Whether some accesses take one host to another. -/
def Reaches (engine : Engine κ η τ ι ρ ω) (before after : Host κ η τ ι ρ ω) : Prop :=
  ∃ accesses, engine.History before accesses after

variable {engine : Engine κ η τ ι ρ ω} {start mid host : Host κ η τ ι ρ ω}
  {accesses : List (Access κ η τ ι ρ)}

namespace History

theorem append (h : engine.History start accesses mid) {later : List (Access κ η τ ι ρ)}
    (hlater : engine.History mid later host) : engine.History start (accesses ++ later) host := by
  induction hlater with
  | nil =>
    rw [List.append_nil]
    exact h
  | outside hlater world ih => exact ih.outside world
  | snoc hlater hstep ih =>
    rw [← List.append_assoc]
    exact ih.snoc hstep

theorem single {access : Access κ η τ ι ρ} (h : engine.Step start access host) :
    engine.History start [access] host :=
  History.nil.snoc h

/-- A history can be taken apart at each of its accesses. -/
theorem split {access : Access κ η τ ι ρ} {earlier later : List (Access κ η τ ι ρ)}
    (h : engine.History start (earlier ++ access :: later) host) :
    ∃ before after, engine.History start earlier before ∧ engine.Step before access after
      ∧ engine.History after later host := by
  generalize hwhole : earlier ++ access :: later = whole at h
  induction h generalizing later with
  | nil => exact nomatch (List.append_eq_nil_iff.1 hwhole).2
  | outside h world ih =>
    obtain ⟨before, after, hearlier, haccess, hlater⟩ := ih hwhole
    exact ⟨before, after, hearlier, haccess, hlater.outside world⟩
  | snoc h hstep ih =>
    rcases List.eq_nil_or_concat later with rfl | ⟨rest, last, rfl⟩
    · obtain ⟨rfl, hlast⟩ := List.append_inj' hwhole rfl
      obtain rfl := List.singleton_inj.1 hlast
      exact ⟨_, _, h, hstep, .nil⟩
    · rw [List.concat_eq_append] at hwhole ⊢
      rw [← List.cons_append, ← List.append_assoc] at hwhole
      obtain ⟨hrest, hlast⟩ := List.append_inj' hwhole rfl
      obtain rfl := List.singleton_inj.1 hlast
      obtain ⟨before, after, hearlier, haccess, hlater⟩ := ih hrest
      exact ⟨before, after, hearlier, haccess, hlater.snoc hstep⟩

end History

namespace Reaches

theorem refl (host : Host κ η τ ι ρ ω) : engine.Reaches host host := ⟨[], .nil⟩

theorem trans (h : engine.Reaches start mid) (hlater : engine.Reaches mid host) :
    engine.Reaches start host := by
  obtain ⟨accesses, hhistory⟩ := h
  obtain ⟨later, hlater⟩ := hlater
  exact ⟨accesses ++ later, hhistory.append hlater⟩

theorem single {access : Access κ η τ ι ρ} (h : engine.Step start access host) :
    engine.Reaches start host := ⟨[access], .single h⟩

theorem outside (host : Host κ η τ ι ρ ω) (world : ω) :
    engine.Reaches host { host with outside := world } := ⟨[], History.nil.outside world⟩

end Reaches

/-! ## Handlers that keep to the engine -/

/-- Whether all that handlers and collaborators do to the registry they do by accesses. -/
structure Orderly (engine : Engine κ η τ ι ρ ω) : Prop where
  handler : ∀ handler, Drifts engine.Reaches (engine.handler handler)
  transaction : ∀ backend method options host,
    (engine.transaction backend method options host).Drifts engine.Reaches host
  instrumentation : ∀ backend method traceName options host,
    (engine.instrumentation backend method traceName options host).Drifts engine.Reaches host
  reporter : ∀ reporter fault host, engine.Reaches host (engine.reporter reporter fault host).2

theorem Orderly.carries (h : engine.Orderly) (type : OperationType η τ ι ρ)
    (config : Config τ ι ρ) : (engine.setting type config).Carries engine.Reaches where
  refl := Reaches.refl
  trans := Reaches.trans
  report fault host := by
    have hreporter : (engine.setting type config).config.reporter
        = config.reporter.map engine.reporter := rfl
    rw [Setting.report, hreporter]
    cases config.reporter with
    | none => exact .refl host
    | some reporter => exact h.reporter reporter fault host
  transaction backend hbackend method options host := by
    obtain ⟨handle, -, rfl⟩ := Option.map_eq_some_iff.1 hbackend
    exact h.transaction handle method options host
  instrumentation backend hbackend method traceName options host := by
    obtain ⟨handle, -, rfl⟩ := Option.map_eq_some_iff.1 hbackend
    exact h.instrumentation handle method traceName options host

/-! ## Calls -/

/-- A call goes by the instructions and the configuration with which it begins. -/
theorem call_eq (engine : Engine κ η τ ι ρ ω) (key : κ) (arguments : Arguments)
    (host : Host κ η τ ι ρ ω) :
    engine.call key arguments host
      = (engine.setting (engine.definition key host).type
          ((engine.definition key host).configIn host.registry.global)).perform
          (Instruction.mapAll engine.handler (engine.definition key host).instructions) arguments
          (engine.begun key host) := by
  rw [← Definition.instructions_freeze (engine.definition key host)]
  rfl

/-- What happens during a call is done by accesses. -/
theorem Orderly.reaches_call (hengine : engine.Orderly) (key : κ) (arguments : Arguments)
    (host : Host κ η τ ι ρ ω) :
    engine.Reaches (engine.begun key host) (engine.call key arguments host).2 := by
  have hleaves : ∀ leaf ∈ Instruction.leavesAll
      (Instruction.mapAll engine.handler (engine.definition key host).instructions),
      Drifts engine.Reaches leaf.2.2 :=
    Instruction.forall_leavesAll_mapAll.2 fun leaf _ => hengine.handler leaf.2.2
  rw [engine.call_eq key arguments host]
  exact (hengine.carries _ _).drifts_perform hleaves arguments (engine.begun key host)

/-- However a call ends, it is an access with which it begins, followed by the accesses that are
    made during the call. -/
theorem History.call (hengine : engine.Orderly) (h : engine.History start accesses host) (key : κ)
    (arguments : Arguments) :
    ∃ inner, engine.History start
      (accesses ++ .call key (engine.definition key host).instructions
        ((engine.definition key host).configIn host.registry.global) :: inner)
      (engine.call key arguments host).2 := by
  obtain ⟨inner, hinner⟩ := hengine.reaches_call key arguments host
  refine ⟨inner, ?_⟩
  have hwhole := (h.snoc (.call key host)).append hinner
  rwa [List.append_assoc] at hwhole

end Engine

end OperationPipeline

import OperationPipeline.Proofs.Transcript

set_option autoImplicit false

/-! # Kinds written down ahead of time

A block that folds the answers of its steps hands its kind down to the plain steps inside, through
`step` blocks but through no others. `Instruction.specialized` writes the kind down at those steps
instead, so that nothing has to be handed down any more.

Main statement: a block of a folding kind does exactly what a block with the same rule, but without
a kind of its own, does with the specialized members (`alike_of_folds`). -/

namespace OperationPipeline

namespace Instruction

variable {η : Type}

mutual

/-- The instruction with the given kind in place of that of its plain steps. Only `step` blocks are
    looked into. -/
def specialized (kind : Kind) : Instruction η → Instruction η
  | .leaf .step name handler => .leaf kind name handler
  | .block .step body => .block .step (specializedAll kind body)
  | other => other
termination_by structural instruction => instruction

/-- The members of a list, specialized. -/
def specializedAll (kind : Kind) : List (Instruction η) → List (Instruction η)
  | [] => []
  | instruction :: rest => instruction.specialized kind :: specializedAll kind rest
termination_by structural body => body

end

end Instruction

/-- Whether steps of the kind are run as that kind wherever they stand. These are the kinds that
    fold the answer of a step into the call. -/
def Kind.Folds (kind : Kind) : Prop :=
  ∀ inherited, Scope.leafKind kind inherited = kind

namespace Setting

variable {ω : Type}

/-- Whether two instructions cannot be told apart: wherever they stand and whatever the handlers and
    the collaborators do, they end with the same result in the same state of the call and of the
    world, and the same events happen on the way, in the same order. -/
def Alike (setting : Setting ω) (first second : Instruction (Handler ω)) : Prop :=
  ∀ inherited, setting.walk first inherited = setting.walk second inherited
    ∧ ∀ path, setting.follow first path inherited = setting.follow second path inherited

variable (setting : Setting ω)

/-- The walk is what is left of the course of an instruction without its events. -/
theorem Alike.of_follow {first second : Instruction (Handler ω)}
    (h : ∀ path inherited, setting.follow first path inherited
      = setting.follow second path inherited) : setting.Alike first second := by
  intro inherited
  refine ⟨?_, fun path => h path inherited⟩
  funext state
  have hfirst := setting.plain_follow first [] inherited ⟨state.call, ⟨state.world, []⟩⟩
  have hsecond := setting.plain_follow second [] inherited ⟨state.call, ⟨state.world, []⟩⟩
  rw [h [] inherited] at hfirst
  exact hfirst.symm.trans hsecond

theorem around_of_folds {kind : Kind} (h : kind.Folds) (label : String)
    (work : State ω → Except EngineError Unit × State ω) :
    setting.around kind label work = work := by
  have hstep := h .step
  cases kind with
  | transaction => exact nomatch hstep
  | benchmark => exact nomatch hstep
  | _ => rfl

/-! ## What is handed down and what is written down -/

mutual

/-- With the kind written down, it does not matter any more what is handed down. -/
theorem follow_specialized {kind : Kind} (h : kind.Folds) :
    (instruction : Instruction (Handler ω)) → (path : Path) → (inherited : Kind) →
    setting.follow (instruction.specialized kind) path inherited
      = setting.follow instruction path kind
  | .leaf own name handler, path, inherited => by
    cases own with
    | step =>
      rw [Instruction.specialized, follow, follow, h inherited, around_of_folds _ h]
      rfl
    | _ => rfl
  | .block own body, path, inherited => by
    cases own with
    | step =>
      rw [Instruction.specialized, follow, follow]
      have hbody := followAll_specialized h body path 0 (Scope.stopRule .step) inherited
      exact congrArg (noted path) hbody
    | _ => rfl
termination_by structural instruction => instruction

theorem followAll_specialized {kind : Kind} (h : kind.Folds) :
    (body : List (Instruction (Handler ω))) → (path : Path) → (index : Nat) → (rule : StopRule) →
    (inherited : Kind) →
    setting.followAll (Instruction.specializedAll kind body) path index ⟨rule, inherited⟩
      = setting.followAll body path index ⟨rule, kind⟩
  | [], _, _, _, _ => rfl
  | instruction :: rest, path, index, rule, inherited => by
    funext state
    have hrest := followAll_specialized h rest path (index + 1) rule inherited
    rw [Instruction.specializedAll, followAll, followAll,
      follow_specialized h instruction (path ++ [index]) inherited, hrest]
    rfl
termination_by structural body => body

end

/-- A block of a folding kind, and a block with the same rule that puts no wrapper around its
    specialized members. -/
theorem alike_of_folds {kind host : Kind} (h : kind.Folds)
    (hhost : ∀ label work, setting.logged.around host label work = work)
    (hrule : Scope.stopRule host = Scope.stopRule kind)
    (body : List (Instruction (Handler ω))) :
    setting.Alike (.block kind body) (.block host (Instruction.specializedAll kind body)) := by
  refine Alike.of_follow setting fun path inherited => ?_
  rw [follow, follow, hhost, around_of_folds _ h]
  have hbody := setting.followAll_specialized h body path 0 (Scope.stopRule kind)
    (Scope.leafKind host inherited)
  rw [Scope.inside, Scope.inside, hrule, hbody, h inherited]

/-- Handing a kind down does what writing it down does: a `validate` block walks as a `success`
    block of its specialized members, which also stops only once the call is finished; the other
    folding blocks walk as `step` blocks of theirs. -/
theorem alike_specialized (body : List (Instruction (Handler ω))) :
    setting.Alike (.block .validate body)
        (.block .success (Instruction.specializedAll .validate body))
      ∧ setting.Alike (.block .operation body)
        (.block .step (Instruction.specializedAll .operation body))
      ∧ setting.Alike (.block .operations body)
        (.block .step (Instruction.specializedAll .operations body))
      ∧ setting.Alike (.block .finishIf body)
        (.block .step (Instruction.specializedAll .finishIf body)) := by
  have hsuccess : ∀ label work, setting.logged.around .success label work = work :=
    fun _ _ => rfl
  have hstep : ∀ label work, setting.logged.around .step label work = work := fun _ _ => rfl
  have hvalidate : Kind.validate.Folds := fun _ => rfl
  have hoperation : Kind.operation.Folds := fun _ => rfl
  have hoperations : Kind.operations.Folds := fun _ => rfl
  have hfinishIf : Kind.finishIf.Folds := fun _ => rfl
  refine ⟨?_, ?_, ?_, ?_⟩
  · exact setting.alike_of_folds hvalidate hsuccess rfl body
  · exact setting.alike_of_folds hoperation hstep rfl body
  · exact setting.alike_of_folds hoperations hstep rfl body
  · exact setting.alike_of_folds hfinishIf hstep rfl body

-- a `success` block keeps what is handed down to it from its own steps
example (first second : Handler ω) :
    Instruction.specializedAll .validate
        [.block .step [.leaf .step "first" first, .block .success [.leaf .step "second" second]]]
      = [.block .step [.leaf .validate "first" first,
          .block .success [.leaf .step "second" second]]] := rfl

end Setting

end OperationPipeline

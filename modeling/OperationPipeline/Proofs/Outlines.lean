import Mathlib.Data.List.Forall2
import OperationPipeline.Instruction.Plan

set_option autoImplicit false

/-! # Outlines

An outline shows a script of declarations and nothing else. There is one node for each call of a
declaring function, in the order of the calls and nested as they are, with the kind of the call and
the name of the step or the nodes of the block (`Declaration.ShownBy`).

Main statement: a plan is outlined as its script says, and the outlines of two plans are equal if
and only if their scripts differ in nothing but handlers (`Plan.outline_shows_script`). -/

namespace OperationPipeline

variable {η μ : Type}

/-! ## Scripts and outlines -/

namespace Declaration

/-- Whether a node of an outline shows a declaration. The nodes of a block, of which there may be
    none, show the declarations in the block one by one. -/
inductive ShownBy : Declaration η → Json → Prop where
  | single (kind : Kind) (name : String) (handler : η) :
    ShownBy (.single kind name handler)
      (.object [("kind", .string kind.word), ("method", .string name)])
  | group (kind : Kind) {body : List (Declaration η)} {nodes : List Json}
      (h : List.Forall₂ ShownBy body nodes) :
    ShownBy (.group kind body)
      (.object [("instructions", .array nodes), ("kind", .string kind.word)])

/-- Whether two declarations agree in kinds, names, nesting and order. Their handlers may differ,
    and may be for different operations. -/
inductive Agrees : Declaration η → Declaration μ → Prop where
  | single (kind : Kind) (name : String) (handler : η) (handler' : μ) :
    Agrees (.single kind name handler) (.single kind name handler')
  | group (kind : Kind) {body : List (Declaration η)} {body' : List (Declaration μ)}
      (h : List.Forall₂ Agrees body body') :
    Agrees (.group kind body) (.group kind body')

/-! ## Instructions of declarations -/

mutual

/-- The instruction that a declaration appends. -/
def instruction : Declaration η → Instruction η
  | .single kind name handler => .leaf kind name handler
  | .group kind body => .block kind (instructionAll body)
termination_by structural declaration => declaration

/-- The instructions that the declarations of a script append. -/
def instructionAll : List (Declaration η) → List (Instruction η)
  | [] => []
  | declaration :: rest => declaration.instruction :: instructionAll rest
termination_by structural declarations => declarations

end

end Declaration

namespace Plan

/-- The functions that declare single steps differ in nothing but the kind. -/
theorem declareSingle_eq_pushLeaf (plan : Plan η) (kind : Kind) :
    plan.declareSingle kind = plan.pushLeaf kind := by
  cases kind <;> rfl

/-- The functions that declare blocks differ in nothing but the kind. -/
theorem declareGroup_eq_pushBlock (plan : Plan η) (kind : Kind) :
    plan.declareGroup kind = plan.pushBlock kind := by
  cases kind <;> rfl

mutual

theorem instructions_declare : (declaration : Declaration η) → (plan : Plan η) →
    (declare declaration plan).instructions = plan.instructions ++ [declaration.instruction]
  | .single kind name handler, plan => by
    rw [declare, declareSingle_eq_pushLeaf]
    rfl
  | .group kind body, plan => by
    have hbody : (declareAll body empty).instructions = Declaration.instructionAll body :=
      instructions_declareAll body empty
    rw [declare, declareGroup_eq_pushBlock, pushBlock, hbody]
    rfl
termination_by structural declaration => declaration

/-- A script appends one instruction for each of its declarations, in order. -/
theorem instructions_declareAll : (script : List (Declaration η)) → (plan : Plan η) →
    (declareAll script plan).instructions
      = plan.instructions ++ Declaration.instructionAll script
  | [], plan => (List.append_nil _).symm
  | declaration :: rest, plan => by
    rw [declareAll, instructions_declareAll rest, instructions_declare declaration plan,
      List.append_assoc]
    rfl
termination_by structural script => script

end

theorem instructions_ofDeclarations (script : List (Declaration η)) :
    (ofDeclarations script).instructions = Declaration.instructionAll script :=
  instructions_declareAll script empty

end Plan

/-! ## What outlines show -/

namespace Declaration

mutual

theorem shownBy_outline : (declaration : Declaration η) →
    declaration.ShownBy declaration.instruction.outline
  | .single kind name handler => .single kind name handler
  | .group kind body => .group kind (shownBy_outlineAll body)
termination_by structural declaration => declaration

theorem shownBy_outlineAll : (script : List (Declaration η)) →
    List.Forall₂ ShownBy script (Instruction.outlineAll (instructionAll script))
  | [] => .nil
  | declaration :: rest => .cons (shownBy_outline declaration) (shownBy_outlineAll rest)
termination_by structural script => script

end

mutual

theorem Agrees.outline_eq : {declaration : Declaration η} → {other : Declaration μ} →
    declaration.Agrees other → declaration.instruction.outline = other.instruction.outline
  | .single _ _ _, _, .single _ _ _ _ => rfl
  | .group kind body, .group _ body', h => by
    cases h with
    | group kind hbody =>
      have hnodes := outlineAll_eq_of_agrees hbody
      rw [instruction, instruction, Instruction.outline, Instruction.outline, hnodes]

/-- Handlers are not shown. -/
theorem outlineAll_eq_of_agrees : {script : List (Declaration η)} →
    {other : List (Declaration μ)} → List.Forall₂ Agrees script other →
    Instruction.outlineAll (instructionAll script) = Instruction.outlineAll (instructionAll other)
  | [], [], _ => rfl
  | declaration :: rest, declaration' :: rest', h => by
    obtain ⟨hfirst, hrest⟩ := List.forall₂_cons.1 h
    rw [instructionAll, instructionAll, Instruction.outlineAll, Instruction.outlineAll,
      hfirst.outline_eq, outlineAll_eq_of_agrees hrest]

end

mutual

theorem agrees_of_same_outline : (declaration : Declaration η) → (other : Declaration μ) →
    declaration.instruction.outline.same other.instruction.outline = true →
    declaration.Agrees other
  | .single kind name handler, .single kind' name' handler', h => by
    simp only [instruction, Instruction.outline, Json.same, Json.sameFields, Bool.and_eq_true,
      beq_iff_eq] at h
    obtain ⟨⟨-, hkind⟩, ⟨-, rfl⟩, -⟩ := h
    obtain rfl := Kind.word_injective hkind
    exact .single kind name handler handler'
  | .group kind body, .group kind' body', h => by
    simp only [instruction, Instruction.outline, Json.same, Json.sameFields, Bool.and_eq_true,
      beq_iff_eq] at h
    obtain ⟨⟨-, hnodes⟩, ⟨-, hkind⟩, -⟩ := h
    obtain rfl := Kind.word_injective hkind
    exact .group kind (agrees_of_same_outlineAll body body' hnodes)
  -- the first field of a step is its kind, that of a block its instructions
  | .single _ _ _, .group _ _, h => by
    simp [instruction, Instruction.outline, Json.same, Json.sameFields] at h
  | .group _ _, .single _ _ _, h => by
    simp [instruction, Instruction.outline, Json.same, Json.sameFields] at h
termination_by structural declaration => declaration

/-- Everything but the handlers is shown. -/
theorem agrees_of_same_outlineAll : (script : List (Declaration η)) →
    (other : List (Declaration μ)) →
    Json.sameItems (Instruction.outlineAll (instructionAll script))
      (Instruction.outlineAll (instructionAll other)) = true →
    List.Forall₂ Agrees script other
  | [], [], _ => .nil
  | [], _ :: _, h => nomatch h
  | _ :: _, [], h => nomatch h
  | declaration :: rest, declaration' :: rest', h => by
    rw [instructionAll, instructionAll, Instruction.outlineAll, Instruction.outlineAll,
      Json.sameItems, Bool.and_eq_true] at h
    exact .cons (agrees_of_same_outline declaration declaration' h.1)
      (agrees_of_same_outlineAll rest rest' h.2)
termination_by structural script => script

end

end Declaration

namespace Plan

/-- An outline is faithful. Take any script of calls of the declaring functions, of all kinds, under
    any names and nested in any way. The outline of the plan has exactly one node for each call, in
    the order of the calls, and each node shows its call: the kind, and the name of a single step or
    the nodes of what is declared in a block. The plan of another script has the same outline, equal
    as a value or equal as JSON, if and only if the scripts agree in kinds, names, nesting and
    order. -/
theorem outline_shows_script (script : List (Declaration η)) :
    let nodes := Instruction.outlineAll (ofDeclarations script).instructions
    List.Forall₂ Declaration.ShownBy script nodes
      ∧ ∀ {μ : Type} (other : List (Declaration μ)),
        let others := Instruction.outlineAll (ofDeclarations other).instructions
        (nodes = others ↔ List.Forall₂ Declaration.Agrees script other)
          ∧ ((Json.array nodes).same (.array others) = true
            ↔ List.Forall₂ Declaration.Agrees script other) := by
  intro nodes
  have hnodes : nodes = Instruction.outlineAll (Declaration.instructionAll script) :=
    congrArg Instruction.outlineAll (instructions_ofDeclarations script)
  refine ⟨hnodes ▸ Declaration.shownBy_outlineAll script, ?_⟩
  intro μ other others
  have hothers : others = Instruction.outlineAll (Declaration.instructionAll other) :=
    congrArg Instruction.outlineAll (instructions_ofDeclarations other)
  have hagrees : Json.sameItems nodes others = true → List.Forall₂ Declaration.Agrees script other :=
    fun hsame => Declaration.agrees_of_same_outlineAll script other (hothers ▸ hnodes ▸ hsame)
  have hequal : List.Forall₂ Declaration.Agrees script other → nodes = others := fun h =>
    hnodes.trans ((Declaration.outlineAll_eq_of_agrees h).trans hothers.symm)
  have hsame : nodes = others → Json.sameItems nodes others = true :=
    fun h => h ▸ Json.sameItems_refl nodes
  exact ⟨⟨fun h => hagrees (hsame h), hequal⟩, ⟨hagrees, fun h => hsame (hequal h)⟩⟩

-- a step is told from an empty block even if it has no name
example (handler : η) :
    Instruction.outlineAll (ofDeclarations
        [.group .success [.single .step "" handler, .group .step []]]).instructions
      = [.object [
          ("instructions", .array [
            .object [("kind", .string "step"), ("method", .string "")],
            .object [("instructions", .array []), ("kind", .string "step")]]),
          ("kind", .string "success")]] := rfl

end Plan

end OperationPipeline

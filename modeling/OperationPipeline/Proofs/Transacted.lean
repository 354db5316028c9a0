import OperationPipeline.Proofs.Hiding
import OperationPipeline.Proofs.Threading

set_option autoImplicit false

/-! # Transactions in place of benchmarks

Chosen benchmarks of a tree may become transactions with the same bodies (`Instruction.transacted`).
Bodies of both are walked in the same scope, and all nodes keep their labels. Over a backend that
does nothing but run its block (`TransactionBackend.Faithful`), a transaction does what its body
does, as far as is seen (`Setting.agree_runTransaction_right`). -/

namespace OperationPipeline

variable {ω ν : Type}

/-! ## Benchmarks that become transactions -/

section Trees

variable {η : Type}

/-- Whether a node of the given kind is a chosen benchmark. -/
def Kind.isChosen (chosen : Path → Bool) (path : Path) (kind : Kind) : Bool :=
  decide (kind = .benchmark) && chosen path

/-- The kind of the node at the path once the chosen benchmarks have become transactions. -/
def Kind.transacted (chosen : Path → Bool) (path : Path) (kind : Kind) : Kind :=
  if kind.isChosen chosen path then .transaction else kind

theorem Kind.isChosen_iff {chosen : Path → Bool} {path : Path} {kind : Kind} :
    kind.isChosen chosen path = true ↔ kind = .benchmark ∧ chosen path = true := by
  simp [isChosen]

theorem Scope.inside_transacted (chosen : Path → Bool) (path : Path) (kind inherited : Kind) :
    inside (kind.transacted chosen path) inherited = inside kind inherited := by
  rw [Kind.transacted]
  split
  · rename_i h
    obtain ⟨rfl, -⟩ := Kind.isChosen_iff.1 h
    rfl
  · rfl

namespace Instruction

mutual

/-- The instruction at the path with transactions in place of the chosen benchmarks. -/
def transacted (chosen : Path → Bool) : Instruction η → Path → Instruction η
  | .leaf kind name handler, path => .leaf (kind.transacted chosen path) name handler
  | .block kind body, path =>
    .block (kind.transacted chosen path) (transactedAll chosen body path 0)
termination_by structural instruction => instruction

/-- The members of the list at the path from the given index on, with transactions in place of the
    chosen benchmarks. -/
def transactedAll (chosen : Path → Bool) :
    List (Instruction η) → Path → Nat → List (Instruction η)
  | [], _, _ => []
  | instruction :: rest, path, index =>
    instruction.transacted chosen (path ++ [index]) :: transactedAll chosen rest path (index + 1)
termination_by structural body => body

end

mutual

/-- The labels of the chosen benchmarks in the instruction at the path. -/
def chosenLabels (chosen : Path → Bool) : Instruction η → Path → List String
  | .leaf kind name _, path => if kind.isChosen chosen path then [name] else []
  | .block kind body, path =>
    (if kind.isChosen chosen path then [(block kind body).label] else [])
      ++ chosenLabelsAll chosen body path 0
termination_by structural instruction => instruction

/-- The labels of the chosen benchmarks in the list at the path, from the given index on. -/
def chosenLabelsAll (chosen : Path → Bool) : List (Instruction η) → Path → Nat → List String
  | [], _, _ => []
  | instruction :: rest, path, index =>
    instruction.chosenLabels chosen (path ++ [index])
      ++ chosenLabelsAll chosen rest path (index + 1)
termination_by structural body => body

end

/-- The names of the steps in an instruction, depth first. -/
def names (instruction : Instruction η) : List String :=
  instruction.leaves.map fun (_, name, _) => name

/-- The label of a benchmark is made of the names of its steps. -/
theorem label_eq (instruction : Instruction η) :
    instruction.label = String.intercalate "-" instruction.names := by
  cases instruction with
  | leaf kind name handler => simp [label, names, leaves]
  | block kind body => rfl

mutual

theorem names_transacted (chosen : Path → Bool) : (instruction : Instruction η) → (path : Path) →
    (instruction.transacted chosen path).names = instruction.names
  | .leaf _ _ _, _ => rfl
  | .block _ body, path => names_transactedAll chosen body path 0
termination_by structural instruction => instruction

theorem names_transactedAll (chosen : Path → Bool) : (body : List (Instruction η)) →
    (path : Path) → (index : Nat) →
    (leavesAll (transactedAll chosen body path index)).map (fun (_, name, _) => name)
      = (leavesAll body).map fun (_, name, _) => name
  | [], _, _ => rfl
  | instruction :: rest, path, index => by
    have hfirst : (instruction.transacted chosen (path ++ [index])).leaves.map
        (fun (_, name, _) => name) = instruction.leaves.map fun (_, name, _) => name :=
      names_transacted chosen instruction (path ++ [index])
    rw [transactedAll, leavesAll, leavesAll, List.map_append, List.map_append, hfirst,
      names_transactedAll chosen rest path (index + 1)]
termination_by structural body => body

end

/-- A node keeps its label. -/
theorem label_transacted (chosen : Path → Bool) (instruction : Instruction η) (path : Path) :
    (instruction.transacted chosen path).label = instruction.label := by
  rw [label_eq, label_eq, names_transacted]

theorem kind_transacted (chosen : Path → Bool) (instruction : Instruction η) (path : Path) :
    (instruction.transacted chosen path).kind = instruction.kind.transacted chosen path := by
  cases instruction <;> rfl

theorem chosenLabels_subset_of_member (chosen : Path → Bool) {body : List (Instruction η)}
    {index : Nat} {member : Instruction η} (h : body[index]? = some member) (path : Path)
    (first : Nat) :
    member.chosenLabels chosen (path ++ [first + index])
      ⊆ chosenLabelsAll chosen body path first := by
  induction body generalizing index first with
  | nil => simp at h
  | cons instruction rest ih =>
    rw [chosenLabelsAll]
    cases index with
    | zero =>
      obtain rfl : instruction = member := by simpa using h
      exact List.subset_append_left _ _
    | succ index =>
      rw [List.getElem?_cons_succ] at h
      have hrest := ih h (first + 1)
      rw [Nat.add_assoc, Nat.add_comm 1] at hrest
      exact List.Subset.trans hrest (List.subset_append_right _ _)

/-- The labels of chosen benchmarks are those of the nodes that paths lead to. -/
theorem label_mem_chosenLabels {chosen : Path → Bool} {root instruction : Instruction η}
    {path : Path} (hat : root.at? path = some instruction) (base : Path)
    (h : instruction.kind.isChosen chosen (base ++ path) = true) :
    instruction.label ∈ root.chosenLabels chosen base := by
  induction path generalizing root base with
  | nil =>
    obtain rfl : root = instruction := Option.some.inj hat
    rw [List.append_nil] at h
    cases root with
    | leaf kind name handler =>
      have hchosen : kind.isChosen chosen base = true := h
      simp [chosenLabels, hchosen, label]
    | block kind body =>
      have hchosen : kind.isChosen chosen base = true := h
      simp [chosenLabels, hchosen]
  | cons index rest ih =>
    cases root with
    | leaf kind name handler => cases hat
    | block kind body =>
      rw [at?] at hat
      cases hmember : body[index]? with
      | none =>
        rw [hmember] at hat
        cases hat
      | some member =>
        rw [hmember] at hat
        have hlabel := ih hat (base ++ [index]) (by rwa [List.append_assoc])
        have hsubset := chosenLabels_subset_of_member chosen hmember base 0
        rw [Nat.zero_add] at hsubset
        exact List.mem_append_right _ (hsubset hlabel)

end Instruction

end Trees

/-! ## Transactions that do nothing else -/

/-- Whether a transaction backend runs its block exactly once and hands on its answer, and does
    nothing else that is seen of the world. -/
structure TransactionBackend.Faithful (view : ω → ν) (backend : TransactionBackend ω) : Prop where
  handsOn : backend.Meets TransactionContract.handsOn
  spares (method : String) (options : Option Json) (world : ω) :
    (backend method options world).Drifts (fun before after => view after = view before) world

/-- Where a block is run once, all that is seen to happen to the world happens in it. -/
theorem Interaction.Drifts.drive_once {α β σ : Type} {view : ω → ν}
    {interaction : Interaction ω α β} {before : ω}
    (h : interaction.Drifts (fun before after => view after = view before) before)
    {block : σ → ω → α × σ × ω} {state : σ} {answer : α}
    (hanswers : interaction.answers block state = [answer]) :
    view interaction.start = view before
      ∧ view (interaction.drive block state).2.2
        = view (block state interaction.start).2.2 := by
  cases interaction with
  | finish last world => simp [answers] at hanswers
  | run world resume =>
    obtain ⟨hworld, hresume⟩ := h
    have hdrifts := hresume (block state world).1 (block state world).2.2
    rw [answers, List.cons.injEq] at hanswers
    refine ⟨hworld, ?_⟩
    rw [drive_run, start]
    generalize resume (block state world).1 (block state world).2.2 = later at hanswers hdrifts ⊢
    cases later with
    | finish last world => exact hdrifts
    | run world resume => simp [answers] at hanswers

/-- A backend whose calls and answers are not seen does nothing that is seen of the log either. -/
theorem TransactionBackend.Faithful.logged {see : Sight ω ν} {backend : TransactionBackend ω}
    (h : backend.Faithful see.world)
    (hopened : ∀ method options, see.event (.transactionOpened method options) = none)
    (hanswered : ∀ answer, see.event (.blockAnswered answer) = none) :
    backend.logged.Faithful see.logged.world where
  handsOn method options world :=
    Interaction.meets_logged (h.handsOn method options world.world) _ _
  spares method options world :=
    Interaction.Drifts.logged_unseen (h.spares method options world.world)
      (hopened method options) hanswered

/-- Over such a backend a transaction does what its body does, as far as is seen. -/
theorem Setting.agree_runTransaction_right {see : Sight ω ν} {setting : Setting ω}
    {backend : TransactionBackend ω} (hbackend : setting.config.transactionBackend = some backend)
    (hfaithful : backend.Faithful see.world)
    {work work' : State ω → Except EngineError Unit × State ω}
    (hauthoring : ∀ state error, (work' state).1 = .error error → error.isAuthoring = true)
    (hwork : see.Agree id work work') : see.Agree id work (setting.runTransaction work') := by
  intro state state' hstate
  obtain ⟨hrun, hanswers⟩ := runTransaction_eq hbackend hfaithful.handsOn work' hauthoring state'
    rfl rfl
  obtain ⟨hstart, hlast⟩ := (hfaithful.spares setting.config.transactionMethod
    setting.config.transactionOptions state'.world).drive_once hanswers
  rw [hrun]
  generalize backend setting.config.transactionMethod setting.config.transactionOptions
    state'.world = interaction at hstart hlast ⊢
  -- the block starts in a world that looks like the one that the transaction is given
  have hblock : see.state state = see.state ⟨state'.call, interaction.start⟩ := by
    obtain ⟨hcall, hworld⟩ := Sight.state_eq_iff.1 hstate
    exact Sight.state_eq_iff.2 ⟨hcall, hworld.trans hstart.symm⟩
  obtain ⟨hresult, hafter⟩ := hwork _ _ hblock
  obtain ⟨hcall, hworld⟩ := Sight.state_eq_iff.1 hafter
  exact ⟨hresult, Sight.state_eq_iff.2 ⟨hcall, hworld.trans hlast.symm⟩⟩

end OperationPipeline

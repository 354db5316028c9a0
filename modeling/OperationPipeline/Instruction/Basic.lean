import OperationPipeline.Json.Writer
import OperationPipeline.Text.Quoted

set_option autoImplicit false

/-! # Instructions

An operation is declared as a list of instructions. An instruction has a kind and is either a single
named step, with a handler of some type `η`, or a block of further instructions. -/

namespace OperationPipeline

/-- The kinds of instruction. -/
inductive Kind where
  | step
  | validate
  | transaction
  | benchmark
  | operation
  | operations
  | success
  | finishIf
  deriving DecidableEq, Inhabited

namespace Kind

/-- The word for a kind in an outline. -/
def word : Kind → String
  | .step => "step"
  | .validate => "validate"
  | .transaction => "transaction"
  | .benchmark => "benchmark"
  | .operation => "operation"
  | .operations => "operations"
  | .success => "success"
  | .finishIf => "finish_if"

/-- The name of a kind for inspection. -/
def inspected : Kind → String
  | .step => "Step"
  | .validate => "Validate"
  | .transaction => "Transaction"
  | .benchmark => "Benchmark"
  | .operation => "Operation"
  | .operations => "Operations"
  | .success => "Success"
  | .finishIf => "FinishIf"

/-- All kinds. -/
def all : List Kind :=
  [.step, .validate, .transaction, .benchmark, .operation, .operations, .success, .finishIf]

/-- The kind of the given word. -/
def ofWord? (word : String) : Option Kind :=
  all.find? fun kind => kind.word == word

theorem word_injective {a b : Kind} (h : a.word = b.word) : a = b := by
  cases a <;> cases b <;> simp_all [word]

end Kind

/-- An instruction whose steps have handlers of type `η`. -/
inductive Instruction (η : Type) where
  /-- A single named step. -/
  | leaf (kind : Kind) (name : String) (handler : η)
  /-- A block of instructions. -/
  | block (kind : Kind) (body : List (Instruction η))

instance {η : Type} : Inhabited (Instruction η) := ⟨.block .step []⟩

namespace Instruction

variable {η μ : Type}

/-- The kind of an instruction. -/
def kind : Instruction η → Kind
  | .leaf kind _ _ => kind
  | .block kind _ => kind

/-! ## Leaves -/

mutual

/-- The steps of an instruction, depth first, with their kinds, names and handlers. -/
def leaves : Instruction η → List (Kind × String × η)
  | .leaf kind name handler => [(kind, name, handler)]
  | .block _ body => leavesAll body
termination_by structural instruction => instruction

/-- The steps of a list of instructions, depth first. -/
def leavesAll : List (Instruction η) → List (Kind × String × η)
  | [] => []
  | instruction :: rest => instruction.leaves ++ leavesAll rest
termination_by structural body => body

end

/-- The name of a single step, or the names of all steps of a block joined by `-`. -/
def label : Instruction η → String
  | .leaf _ name _ => name
  | .block _ body => String.intercalate "-" ((leavesAll body).map fun (_, name, _) => name)

/-! ## Other handlers -/

mutual

/-- The same instruction with every handler replaced. -/
def map (f : η → μ) : Instruction η → Instruction μ
  | .leaf kind name handler => .leaf kind name (f handler)
  | .block kind body => .block kind (mapAll f body)
termination_by structural instruction => instruction

/-- The same instructions with every handler replaced. -/
def mapAll (f : η → μ) : List (Instruction η) → List (Instruction μ)
  | [] => []
  | instruction :: rest => instruction.map f :: mapAll f rest
termination_by structural body => body

end

/-! ## Outlines -/

mutual

/-- The shape of an instruction as a JSON value: its kind, and the name of its step or the outlines
    of its body. -/
def outline : Instruction η → Json
  | .leaf kind name _ => .object [("kind", .string kind.word), ("method", .string name)]
  | .block kind body =>
    .object [("instructions", .array (outlineAll body)), ("kind", .string kind.word)]
termination_by structural instruction => instruction

/-- The outlines of a list of instructions. -/
def outlineAll : List (Instruction η) → List Json
  | [] => []
  | instruction :: rest => instruction.outline :: outlineAll rest
termination_by structural body => body

end

mutual

/-- The instruction for inspection. -/
def inspected : Instruction η → String
  | .leaf kind name _ =>
    "Instruction \x7b kind: " ++ kind.inspected ++ ", method: " ++ Text.quoted name ++ " \x7d"
  | .block kind body =>
    "Instruction \x7b kind: " ++ kind.inspected ++ ", instructions: "
      ++ Text.bracketed "[" "]" (inspectedAll body) ++ " \x7d"
termination_by structural instruction => instruction

/-- The instructions of a list for inspection. -/
def inspectedAll : List (Instruction η) → List String
  | [] => []
  | instruction :: rest => instruction.inspected :: inspectedAll rest
termination_by structural body => body

end

/-- A single step for inspection. -/
def inspectedStep (name : String) : String :=
  "StepDef \x7b name: " ++ Text.quoted name ++ " \x7d"

/-! ## Lists as maps -/

theorem mapAll_eq_map (f : η → μ) (body : List (Instruction η)) :
    mapAll f body = body.map (map f) := by
  induction body with
  | nil => rfl
  | cons instruction rest ih => simp [mapAll, ih]

theorem outlineAll_eq_map (body : List (Instruction η)) :
    outlineAll body = body.map outline := by
  induction body with
  | nil => rfl
  | cons instruction rest ih => simp [outlineAll, ih]

theorem leavesAll_eq_flatMap (body : List (Instruction η)) :
    leavesAll body = body.flatMap leaves := by
  induction body with
  | nil => rfl
  | cons instruction rest ih => simp [leavesAll, ih]

/-! ## Leaves with other handlers -/

mutual

theorem leaves_map (f : η → μ) : (instruction : Instruction η) →
    (instruction.map f).leaves
      = instruction.leaves.map fun (kind, name, handler) => (kind, name, f handler)
  | .leaf _ _ _ => rfl
  | .block _ body => leavesAll_mapAll f body
termination_by structural instruction => instruction

theorem leavesAll_mapAll (f : η → μ) : (body : List (Instruction η)) →
    leavesAll (mapAll f body)
      = (leavesAll body).map fun (kind, name, handler) => (kind, name, f handler)
  | [] => rfl
  | instruction :: rest => by
    rw [mapAll, leavesAll, leavesAll, List.map_append, leaves_map f instruction,
      leavesAll_mapAll f rest]
termination_by structural body => body

end

theorem forall_leavesAll_mapAll {f : η → μ} {body : List (Instruction η)} {p : μ → Prop} :
    (∀ leaf ∈ leavesAll (mapAll f body), p leaf.2.2)
      ↔ ∀ leaf ∈ leavesAll body, p (f leaf.2.2) := by
  rw [leavesAll_mapAll, List.forall_mem_map]

end Instruction

end OperationPipeline

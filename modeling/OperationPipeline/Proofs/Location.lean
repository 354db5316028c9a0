import OperationPipeline.Instruction.Basic

set_option autoImplicit false

/-! # Where instructions stand

An instruction of an operation is told from all others by the path that leads to it. `leafPathsAll`
lists the paths to all steps in the order in which they are declared; no path is listed twice
(`nodup_leafPathsAll`), and the steps that they lead to are the leaves (`at?_leafPathsAll`). -/

namespace OperationPipeline

/-- The way to an instruction: which member to take in each list, from the outside in. -/
abbrev Path := List Nat

namespace Instruction

variable {η : Type}

/-! ## Looking up -/

/-- The instruction that a path leads to from another one. -/
def at? : Instruction η → Path → Option (Instruction η)
  | instruction, [] => some instruction
  | .leaf _ _ _, _ :: _ => none
  | .block _ body, index :: path =>
    match body[index]? with
    | none => none
    | some member => member.at? path
termination_by structural _ path => path

/-- All instructions of an operation as one, from which the paths to them start. -/
def whole (instructions : List (Instruction η)) : Instruction η := .block .step instructions

/-- The last part of a path takes a member of the block that the others lead to. -/
theorem at?_concat {root : Instruction η} {path : Path} {kind : Kind}
    {body : List (Instruction η)} (h : root.at? path = some (.block kind body)) (index : Nat) :
    root.at? (path ++ [index]) = body[index]? := by
  induction path generalizing root with
  | nil =>
    obtain rfl : root = .block kind body := Option.some.inj h
    rw [List.nil_append, at?]
    cases body[index]? <;> rfl
  | cons first rest ih =>
    cases root with
    | leaf own name handler => exact nomatch h
    | block own members =>
      rw [List.cons_append, at?]
      rw [at?] at h
      cases hmember : members[first]? with
      | none =>
        rw [hmember] at h
        exact nomatch h
      | some member =>
        rw [hmember] at h
        exact ih h

/-- The steps of an instruction are steps of every instruction that it stands in. -/
theorem leaves_subset_of_at? {root instruction : Instruction η} {path : Path}
    (h : root.at? path = some instruction) : instruction.leaves ⊆ root.leaves := by
  induction path generalizing root with
  | nil =>
    obtain rfl : root = instruction := Option.some.inj h
    exact List.Subset.refl _
  | cons first rest ih =>
    cases root with
    | leaf kind name handler => exact nomatch h
    | block kind body =>
      rw [at?] at h
      cases hmember : body[first]? with
      | none =>
        rw [hmember] at h
        exact nomatch h
      | some member =>
        rw [hmember] at h
        rw [leaves, leavesAll_eq_flatMap]
        intro leaf hleaf
        exact List.mem_flatMap.2 ⟨member, List.mem_of_getElem? hmember, ih h hleaf⟩

/-- Whether two paths part in the body of a `success` or `validate` block. -/
def PartInGroup (root : Instruction η) (first second : Path) : Prop :=
  ∃ path kind body index index', root.at? path = some (.block kind body)
    ∧ (kind = .success ∨ kind = .validate) ∧ index ≠ index'
    ∧ path ++ [index] <+: first ∧ path ++ [index'] <+: second

/-! ## Steps -/

mutual

/-- The paths to the steps of the instruction at the path, depth first. -/
def leafPaths : Instruction η → Path → List Path
  | .leaf _ _ _, path => [path]
  | .block _ body, path => leafPathsAll body path 0
termination_by structural instruction => instruction

/-- The paths to the steps of the list at the path from the given index on, depth first. -/
def leafPathsAll : List (Instruction η) → Path → Nat → List Path
  | [], _, _ => []
  | instruction :: rest, path, index =>
    instruction.leafPaths (path ++ [index]) ++ leafPathsAll rest path (index + 1)
termination_by structural body => body

end

mutual

theorem prefix_of_mem_leafPaths : (instruction : Instruction η) → (path : Path) → {other : Path} →
    other ∈ instruction.leafPaths path → path <+: other
  | .leaf _ _ _, path, other, h => by
    obtain rfl := List.mem_singleton.1 h
    exact List.prefix_rfl
  | .block _ body, path, other, h => by
    obtain ⟨place, -, hplace⟩ := prefix_of_mem_leafPathsAll body path 0 h
    exact (List.prefix_append _ _).trans hplace
termination_by structural instruction => instruction

theorem prefix_of_mem_leafPathsAll : (body : List (Instruction η)) → (path : Path) →
    (index : Nat) → {other : Path} → other ∈ leafPathsAll body path index →
    ∃ place, index ≤ place ∧ path ++ [place] <+: other
  | [], _, _, _, h => nomatch h
  | instruction :: rest, path, index, other, h => by
    rcases List.mem_append.1 h with h | h
    · exact ⟨index, Nat.le_refl _, prefix_of_mem_leafPaths instruction (path ++ [index]) h⟩
    · obtain ⟨place, hindex, hplace⟩ := prefix_of_mem_leafPathsAll rest path (index + 1) h
      exact ⟨place, Nat.le_of_succ_le hindex, hplace⟩
termination_by structural body => body

end

/-- A path leads through one member of a list only. -/
theorem place_unique {path other : Path} {index index' : Nat} (h : path ++ [index] <+: other)
    (h' : path ++ [index'] <+: other) : index = index' := by
  have hlength : (path ++ [index]).length = (path ++ [index']).length := by
    rw [List.length_append, List.length_append, List.length_singleton, List.length_singleton]
  have heq := (List.prefix_of_prefix_length_le h h' (Nat.le_of_eq hlength)).eq_of_length hlength
  exact List.singleton_inj.1 (List.append_cancel_left heq)

mutual

theorem nodup_leafPaths : (instruction : Instruction η) → (path : Path) →
    (instruction.leafPaths path).Nodup
  | .leaf _ _ _, path => List.pairwise_singleton _ path
  | .block _ body, path => nodup_leafPathsAll body path 0
termination_by structural instruction => instruction

/-- No path is listed twice. -/
theorem nodup_leafPathsAll : (body : List (Instruction η)) → (path : Path) → (index : Nat) →
    (leafPathsAll body path index).Nodup
  | [], _, _ => List.nodup_nil
  | instruction :: rest, path, index => by
    rw [leafPathsAll, List.nodup_append]
    refine ⟨nodup_leafPaths instruction (path ++ [index]),
      nodup_leafPathsAll rest path (index + 1), ?_⟩
    intro first hfirst second hsecond heq
    obtain ⟨place, hindex, hplace⟩ := prefix_of_mem_leafPathsAll rest path (index + 1) hsecond
    have hhere := prefix_of_mem_leafPaths instruction (path ++ [index]) hfirst
    rw [heq] at hhere
    have hsame := place_unique hhere hplace
    omega
termination_by structural body => body

end

/-- A step as it is listed among the leaves. -/
def ofLeaf (leaf : Kind × String × η) : Instruction η :=
  .leaf leaf.1 leaf.2.1 leaf.2.2

mutual

theorem at?_leafPaths {root : Instruction η} : (instruction : Instruction η) → (path : Path) →
    root.at? path = some instruction →
    (instruction.leafPaths path).map root.at? = instruction.leaves.map (some ∘ ofLeaf)
  | .leaf kind name handler, path, h => by
    rw [leafPaths, leaves, List.map_singleton, List.map_singleton, h]
    rfl
  | .block kind body, path, h => by
    rw [leafPaths, leaves]
    exact at?_leafPathsAll body path 0 h List.drop_zero
termination_by structural instruction => instruction

/-- The steps that the paths lead to are the leaves, in the same order. -/
theorem at?_leafPathsAll {root : Instruction η} : (body : List (Instruction η)) →
    (path : Path) → (index : Nat) → {kind : Kind} → {members : List (Instruction η)} →
    root.at? path = some (.block kind members) → members.drop index = body →
    (leafPathsAll body path index).map root.at? = (leavesAll body).map (some ∘ ofLeaf)
  | [], _, _, _, _, _, _ => rfl
  | instruction :: rest, path, index, kind, members, h, hdrop => by
    have hhere : members[index]? = some instruction := by
      rw [← List.head?_drop, hdrop]
      rfl
    have hrest : members.drop (index + 1) = rest := by
      rw [← List.tail_drop, hdrop]
      rfl
    rw [leafPathsAll, leavesAll, List.map_append, List.map_append,
      at?_leafPaths instruction (path ++ [index]) ((at?_concat h index).trans hhere),
      at?_leafPathsAll rest path (index + 1) h hrest]
termination_by structural body => body

end

end Instruction

end OperationPipeline

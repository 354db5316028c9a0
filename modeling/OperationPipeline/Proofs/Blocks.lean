import OperationPipeline.Proofs.CourseLaws

set_option autoImplicit false

/-! # The blocks of transactions

What a transaction hands to its backend is one block: the work inside the transaction, which ends
with an answer to the backend. `Setting.followBlock` is one run of that block in a logged world. The
work inside is the same that the walk puts the wrapper around (`Setting.follow_eq`), so that what is
proved of all runs of blocks (`Setting.course_followBlock`) holds of every transaction at every
depth, whatever the backend does between them. -/

namespace OperationPipeline.Setting

variable {ω : Type}

/-- The work inside the wrapper of the instruction at the path. -/
def followInside (setting : Setting ω) (instruction : Instruction (Handler ω)) (path : Path)
    (inherited : Kind) : State (Logged ω) → Except EngineError Unit × State (Logged ω) :=
  match instruction with
  | .leaf kind name handler =>
    setting.logged.walkLeaf (Scope.leafKind kind inherited) name (handler.logged path)
  | .block kind body => setting.followAll body path 0 (Scope.inside kind inherited)

/-- One run of the block that the transaction at the path hands to its backend. -/
def followBlock (setting : Setting ω) (instruction : Instruction (Handler ω)) (path : Path)
    (inherited : Kind) : Call → Logged ω → Except Abort Unit × Call × Logged ω :=
  transactionBlock (setting.followInside instruction path inherited)

variable (setting : Setting ω)

/-- What is followed is the wrapper of an instruction around the work inside. -/
theorem follow_eq (instruction : Instruction (Handler ω)) (path : Path) (inherited : Kind) :
    setting.follow instruction path inherited
      = noted path (setting.logged.around instruction.kind instruction.label
          (setting.followInside instruction path inherited)) := by
  cases instruction <;> rfl

theorem takes_followInside (instruction : Instruction (Handler ω)) (path : Path)
    (inherited : Kind) :
    Takes (setting.followInside instruction path inherited)
      (Course setting (.inner path instruction inherited)) := by
  intro state
  cases instruction with
  | leaf kind name handler =>
    obtain ⟨events, hlog, hstepped⟩ :=
      setting.takes_walkLeaf path (Scope.leafKind kind inherited) name handler state
    exact ⟨events, hlog, .leaf hstepped⟩
  | block kind body =>
    obtain ⟨events, hlog, hcourse⟩ :=
      setting.takes_followAll body path 0 (Scope.inside kind inherited) state
    exact ⟨events, hlog, .block hcourse⟩

/-- A run of a block takes a course, and answers to how that ends. -/
theorem course_followBlock (instruction : Instruction (Handler ω)) (path : Path)
    (inherited : Kind) (call : Call) (world : Logged ω) :
    ∃ events walked,
      (setting.followBlock instruction path inherited call world).2.2.log = world.log ++ events
        ∧ Course setting (.inner path instruction inherited) call events walked
          (setting.followBlock instruction path inherited call world).2.1
        ∧ (setting.followBlock instruction path inherited call world).1
          = blockAnswer walked
              (setting.followBlock instruction path inherited call world).2.1.outcome := by
  obtain ⟨events, hlog, hcourse⟩ :=
    setting.takes_followInside instruction path inherited ⟨call, world⟩
  exact ⟨events, _, hlog, hcourse, rfl⟩

end OperationPipeline.Setting

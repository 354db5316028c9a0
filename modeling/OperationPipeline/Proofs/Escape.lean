import OperationPipeline.Proofs.Raising

set_option autoImplicit false

/-! # Errors escape every level

An authoring error that arises anywhere in a call is what the call returns, and if the handlers
around it pass on what their calls return, it is what the outermost call returns as well, however
deep the calls are nested (`Invocation.arises_of_passesOn`). On its way out, no handler is entered
any more and every block that answers does so with the error. Nothing but such errors escapes. -/

namespace OperationPipeline

variable {ω : Type} {setting : Setting ω}

/-! ## Whole calls -/

theorem Task.placed_whole {η : Type} (instructions : List (Instruction η)) :
    (Task.members [] 0 instructions .root).Placed (Instruction.whole instructions) :=
  ⟨.step, instructions, rfl, List.drop_zero, rfl⟩

theorem CallCourse.raised_of_raises {instructions : List (Instruction (Handler ω))}
    {start after : Call} {events : List Event} {result : Option (Except EngineError Unit)}
    (h : CallCourse setting instructions start events result after)
    (hbackend : setting.Transacts .passesErrorsOn) {event : Event} (hevent : event ∈ events)
    {error : EngineError} (hraises : event.Raises setting (.whole instructions) error) :
    result = some (.error error) := by
  cases h with
  | skipped hskips hmeets hevents => exact ((hevents event hevent).not_raises hraises).elim
  | walked hopening hclosing h =>
    simp only [List.mem_append, or_assoc] at hevent
    rcases hevent with hevent | hevent | hevent
    · exact ((hopening event hevent).not_raises hraises).elim
    · exact congrArg some
        (h.raised_of_raises hbackend (Task.placed_whole instructions) trivial hevent hraises)
    · exact ((hclosing event hevent).not_raises hraises).elim

theorem CallCourse.pairwise_unwinds {instructions : List (Instruction (Handler ω))}
    {start after : Call} {events : List Event} {result : Option (Except EngineError Unit)}
    (h : CallCourse setting instructions start events result after)
    (hbackend : setting.Transacts .passesErrorsOn) :
    events.Pairwise (Event.UnwindsAfter setting (.whole instructions)) := by
  cases h with
  | skipped hskips hmeets hevents => exact Event.pairwise_unwindsAfter_of_trace hevents
  | walked hopening hclosing h =>
    rw [List.pairwise_append, List.pairwise_append]
    refine ⟨⟨Event.pairwise_unwindsAfter_of_trace hopening,
      h.pairwise_unwinds hbackend (Task.placed_whole instructions) trivial,
      fun first hfirst _ _ _ hraises => ((hopening first hfirst).not_raises hraises).elim⟩,
      Event.pairwise_unwindsAfter_of_trace hclosing, fun _ _ second hsecond error _ => ?_⟩
    exact (hclosing second hsecond).unwinds error

theorem CallCourse.exists_raises {instructions : List (Instruction (Handler ω))}
    {start after : Call} {events : List Event} {result : Option (Except EngineError Unit)}
    (h : CallCourse setting instructions start events result after) {error : EngineError}
    (herror : result = some (.error error)) :
    ∃ event ∈ events, event.Raises setting (.whole instructions) error := by
  cases h with
  | skipped hskips hmeets hevents => exact nomatch herror
  | walked hopening hclosing h =>
    obtain ⟨event, hevent, hraises⟩ :=
      h.exists_raises (Task.placed_whole instructions) (Option.some.inj herror)
    exact ⟨event, List.mem_append_left _ (List.mem_append_right _ hevent), hraises⟩

/-- A call with a valid configuration returns the errors that are raised in its walk. -/
theorem Setting.perform_eq_error_iff {instructions : List (Instruction (Handler ω))}
    {arguments : Arguments} {world : ω} (hvalid : setting.config.validate = .ok ())
    (error : EngineError) :
    (setting.perform instructions arguments world).1 = .error error
      ↔ (setting.followCall instructions arguments world).1 = some (.error error) := by
  rw [setting.plain_followCall instructions arguments world hvalid]
  rcases setting.followCall instructions arguments world with ⟨result, after⟩
  cases result with
  | none => exact ⟨nofun, nofun⟩
  | some result =>
    cases result with
    | ok u => exact ⟨nofun, nofun⟩
    | error raised => simp only [concluded, Except.error.injEq, Option.some.injEq]

/-- A call of an operation that has the given instructions. -/
structure Invocation (ω : Type) where
  setting : Setting ω
  instructions : List (Instruction (Handler ω))
  arguments : Arguments
  world : ω

namespace Invocation

/-- What the call returns. -/
def result (invocation : Invocation ω) : Except EngineError Outcome :=
  (invocation.setting.perform invocation.instructions invocation.arguments invocation.world).1

/-- What happens during the call. -/
def transcript (invocation : Invocation ω) : List Event :=
  invocation.setting.transcript invocation.instructions invocation.arguments invocation.world

/-- The instructions of the operation as one. -/
def tree (invocation : Invocation ω) : Instruction (Handler ω) :=
  .whole invocation.instructions

/-- Whether an error arises in a call, before the events `later`: the configuration is not valid, or
    it is raised at an event. -/
inductive Arises (invocation : Invocation ω) (error : EngineError) : List Event → Prop where
  | invalid (h : invocation.setting.config.validate = .error error) :
    Arises invocation error invocation.transcript
  | raised {earlier later : List Event} {event : Event}
      (htranscript : invocation.transcript = earlier ++ event :: later)
      (hraises : event.Raises invocation.setting invocation.tree error) :
    Arises invocation error later

theorem transcript_of_invalid {invocation : Invocation ω} {error : EngineError}
    (h : invocation.setting.config.validate = .error error) : invocation.transcript = [] := by
  rw [transcript, Setting.transcript, h]

/-- A call with a valid configuration takes a course, and returns the error in which it ends. -/
theorem takes_course {invocation : Invocation ω}
    (hvalid : invocation.setting.config.validate = .ok ()) :
    ∃ ended after, CallCourse invocation.setting invocation.instructions
        (Call.start invocation.arguments) invocation.transcript ended after
      ∧ ∀ error, invocation.result = .error error ↔ ended = some (.error error) := by
  have htranscript : invocation.transcript = (invocation.setting.followCall
      invocation.instructions invocation.arguments invocation.world).2.world.log := by
    rw [transcript, Setting.transcript, hvalid]
  rw [htranscript]
  exact ⟨_, _, invocation.setting.takes_followCall invocation.instructions invocation.arguments
    invocation.world, Setting.perform_eq_error_iff hvalid⟩

/-- A call returns the error that arises in it, and only unwinds from there on. -/
theorem Arises.escapes {invocation : Invocation ω} {error : EngineError} {later : List Event}
    (h : invocation.Arises error later)
    (hbackend : invocation.setting.Transacts .passesErrorsOn) :
    invocation.result = .error error ∧ ∀ event ∈ later, event.Unwinds error := by
  cases h with
  | invalid hinvalid =>
    rw [transcript_of_invalid hinvalid, result, Setting.perform, hinvalid]
    exact ⟨rfl, List.forall_mem_nil _⟩
  | @raised earlier later event htranscript hraises =>
    cases hvalid : invocation.setting.config.validate with
    | error invalid =>
      rw [transcript_of_invalid hvalid] at htranscript
      exact absurd htranscript.symm (List.append_ne_nil_of_right_ne_nil _ (List.cons_ne_nil _ _))
    | ok u =>
      obtain ⟨ended, after, hcourse, hresult⟩ := takes_course hvalid
      have hpairwise := hcourse.pairwise_unwinds hbackend
      rw [htranscript] at hcourse hpairwise
      rw [List.pairwise_append, List.pairwise_cons] at hpairwise
      have hevent : event ∈ earlier ++ event :: later :=
        List.mem_append_right _ List.mem_cons_self
      exact ⟨(hresult error).2 (hcourse.raised_of_raises hbackend hevent hraises),
        fun second hsecond => hpairwise.2.1.1 second hsecond error hraises⟩

/-- An error that a call returns has arisen in it. -/
theorem arises_of_result {invocation : Invocation ω} {error : EngineError}
    (h : invocation.result = .error error) : ∃ later, invocation.Arises error later := by
  cases hvalid : invocation.setting.config.validate with
  | error invalid =>
    rw [result, Setting.perform, hvalid] at h
    obtain rfl := Except.error.inj h
    exact ⟨_, .invalid hvalid⟩
  | ok u =>
    obtain ⟨ended, after, hcourse, hresult⟩ := takes_course hvalid
    obtain ⟨event, hevent, hraises⟩ := hcourse.exists_raises ((hresult error).1 h)
    obtain ⟨earlier, later, hsplit⟩ := List.append_of_mem hevent
    exact ⟨later, .raised hsplit hraises⟩

end Invocation

/-! ## Backends -/

namespace Invocation

/-- A handler that makes a call: it answers with the outcome, or passes the error on in the given
    contexts. -/
def handler (invocation : Invocation Unit) (contexts : List String) : Handler Unit := fun state =>
  match invocation.result with
  | .ok outcome => (.answered (.outcome outcome), state)
  | .error error => (.faulted ⟨.engine error, contexts⟩, state)

end Invocation

end OperationPipeline

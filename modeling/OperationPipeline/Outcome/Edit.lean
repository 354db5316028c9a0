import OperationPipeline.Outcome.Basic

set_option autoImplicit false

/-! # Edits of an outcome

Everything that code outside the engine can do to an outcome, as data: an outcome that is built by
handlers is `Outcome.built` from an initial output by a list of edits. -/

namespace OperationPipeline

/-- A change that is open to everyone who holds an outcome. -/
inductive Outcome.Edit where
  | addError (field : String) (message : Json)
  | addErrors (messages : List (String × Json))
  | addException (step text : String) (operation : Option String)
  | addExceptions (exceptions : List (String × List String))
  | addInformation (information : List (String × Json))
  | addTrace (entry : TraceEntry)
  | mergeFailures (other : Outcome)
  | setOutput (output : Json)
  | editOutput (change : Json → Json)

namespace Outcome

/-- Carries out an edit. -/
def apply (outcome : Outcome) : Edit → Outcome
  | .addError field message => outcome.addError field message
  | .addErrors messages => outcome.addErrors messages
  | .addException step text operation => outcome.addException step text operation
  | .addExceptions exceptions => outcome.addExceptions exceptions
  | .addInformation information => outcome.addInformation information
  | .addTrace entry => outcome.addTrace entry
  | .mergeFailures other => outcome.mergeFailures other
  | .setOutput output => outcome.setOutput output
  | .editOutput change => outcome.setOutput (change outcome.output)

/-- Carries out several edits in turn. -/
def applyAll (outcome : Outcome) (edits : List Edit) : Outcome :=
  edits.foldl apply outcome

/-- The outcome that starts with `output` and goes through `edits`. -/
def built (output : Json) (edits : List Edit) : Outcome :=
  (withOutput output).applyAll edits

/-- The list `items` with `value` at its end; any other value gives way to a list of one. -/
def pushed (value : Json) : Json → Json
  | .array items => .array (items ++ [value])
  | _ => .array [value]

theorem applyAll_append (outcome : Outcome) (first second : List Edit) :
    outcome.applyAll (first ++ second) = (outcome.applyAll first).applyAll second := by
  simp [applyAll]

end Outcome

end OperationPipeline

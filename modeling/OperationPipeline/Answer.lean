import OperationPipeline.Outcome.Basic
import OperationPipeline.Text.Quoted
import OperationPipeline.Validation

set_option autoImplicit false

/-! # What steps answer

A plain step may answer with anything. Steps of the other kinds have to answer in a certain shape,
except that `finish_if` only asks whether the answer is truthy. -/

namespace OperationPipeline

/-- The answer of a step. -/
inductive Answer where
  | nothing
  | flag (value : Bool)
  | value (value : Json)
  | outcome (outcome : Outcome)
  | outcomes (outcomes : List Outcome)
  | verdict (verdict : Verdict)
  deriving Inhabited

namespace Answer

/-- Nothing, `false` and `null` are not truthy; everything else is. -/
def truthy : Answer → Bool
  | .nothing => false
  | .flag b => b
  | .value .null => false
  | .value (.bool b) => b
  | .value _ => true
  | .outcome _ => true
  | .outcomes _ => true
  | .verdict _ => true

/-- The shape of an answer, in words. -/
def shape : Answer → String
  | .nothing => "nothing"
  | .flag _ => "a bool"
  | .value _ => "a plain value"
  | .outcome _ => "an OperationResult"
  | .outcomes _ => "a Vec of OperationResult"
  | .verdict _ => "a validation outcome"

/-- The answer for inspection, if it carries no data: of a verdict only whether it passed. -/
def inspected? : Answer → Option String
  | .nothing => some "Unit"
  | .flag b => some ("Bool(" ++ Text.truth b ++ ")")
  | .verdict v => some ("Validation \x7b success: " ++ Text.truth v.success ++ " \x7d")
  | _ => none

theorem truthy_value (v : Json) : (value v).truthy = !(v.isNull || v.same (.bool false)) := by
  cases v with
  | bool b => cases b <;> rfl
  | _ => rfl

end Answer

end OperationPipeline

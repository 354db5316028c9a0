import OperationPipeline.Validation

set_option autoImplicit false

/-! # Checks

Conditions on the value of a field, as data, with the message for when they do not hold. -/

namespace OperationPipeline.Script

/-- A condition on a value. -/
inductive Condition where
  | isSigned
  | isUnsigned
  | isString
  | isBool
  | isNull
  | isNotNull
  | equals (operand : Json)
  /-- A signed integer that is at least `bound`. -/
  | atLeast (bound : Int)
  | always
  | never

/-- Whether a condition holds of a value. -/
def Condition.holds : Condition → Json → Bool
  | .isSigned, value => value.signed?.isSome
  | .isUnsigned, value => value.unsigned?.isSome
  | .isString, .string _ => true
  | .isString, _ => false
  | .isBool, .bool _ => true
  | .isBool, _ => false
  | .isNull, value => value.isNull
  | .isNotNull, value => !value.isNull
  | .equals operand, value => value.same operand
  | .atLeast bound, value => value.signed?.any (bound ≤ ·)
  | .always, _ => true
  | .never, _ => false

/-- A condition on the value of a field. -/
structure Check where
  field : String
  condition : Condition
  message : Json

/-- The validation of `values` with the given errors recorded first and the checks made after. -/
def validated (values : Entries Json) (errors : List (String × Json)) (checks : List Check) :
    Validation :=
  let recorded := errors.foldl (fun acc (field, message) => acc.addError field message)
    (Validation.ofValues values)
  checks.foldl (fun acc check => acc.check check.field check.condition.holds check.message) recorded

end OperationPipeline.Script

import OperationPipeline.Json.Basic

set_option autoImplicit false

/-! # Validations

A verdict is what a `validate` step may answer with besides an outcome: whether the check passed,
the messages by field if it did not, and the checked values if it did. `Validation` is the plain way
to reach one: values, and the errors found while checking them. -/

namespace OperationPipeline

/-- A pass-or-fail verdict. -/
structure Verdict where
  success : Bool
  errors : Entries (List Json)
  values : Entries Json
  deriving Inhabited

/-- Values under check and the errors found so far. -/
structure Validation where
  values : Entries Json := []
  errors : Entries (List Json) := []
  deriving Inhabited

namespace Validation

/-- A validation of the given values, without errors. -/
def ofValues (values : Entries Json) : Validation := { values }

/-- Records `message` against `field`; equal messages are kept once. -/
def addError (validation : Validation) (field : String) (message : Json) : Validation :=
  let messages := (validation.errors.at? field).getD []
  let messages := if messages.any (·.same message) then messages else messages ++ [message]
  { validation with errors := validation.errors.put field messages }

/-- Records `message` against `field` unless the field's value passes; an absent value is `null`. -/
def check (validation : Validation) (field : String) (passes : Json → Bool) (message : Json) :
    Validation :=
  if passes ((validation.values.at? field).getD .null) then validation
  else validation.addError field message

/-- Whether no errors were found. -/
def isSuccess (validation : Validation) : Bool :=
  validation.errors.isEmpty

/-- The verdict on the values. -/
def verdict (validation : Validation) : Verdict :=
  ⟨validation.isSuccess, validation.errors, validation.values⟩

/-- Equality of values and errors; the order of fields does not count. -/
def same (a b : Validation) : Bool :=
  Json.sameFields a.values b.values && Entries.agree Json.sameItems a.errors b.errors

/-- Recording an error is never undone: the validation has failed from then on. -/
theorem isSuccess_addError (validation : Validation) (field : String) (message : Json) :
    (validation.addError field message).isSuccess = false := by
  simp only [addError, isSuccess]
  cases validation.errors with
  | nil => simp [Entries.put]
  | cons entry rest =>
    obtain ⟨k, v⟩ := entry
    by_cases h : k = field <;> simp [Entries.put, h]

end Validation

end OperationPipeline

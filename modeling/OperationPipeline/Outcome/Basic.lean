import OperationPipeline.EngineError
import OperationPipeline.Outcome.Messages
import OperationPipeline.Outcome.Trace

set_option autoImplicit false

/-! # Outcomes

What a call returns. Two channels of failure are kept apart: `errors` holds what the domain expects
to go wrong, by field, and `exceptions` the faults caught at step boundaries, by the qualified name
of the step. Either of them makes the outcome a failure. -/

namespace OperationPipeline

/-- The outcome of a call. -/
structure Outcome where
  /-- The messages of each field, in the order of first mention. -/
  errors : Entries (List Json) := []
  /-- The fault texts of each step, in the order of first mention. -/
  exceptions : Entries (List String) := []
  /-- Further data under sorted keys. -/
  information : Entries Json := []
  /-- The steps that were run. -/
  trace : List TraceEntry := []
  /-- The value that was computed. -/
  output : Json := .null
  deriving Inhabited

namespace Outcome

/-- An outcome with the given output. -/
def withOutput (output : Json) : Outcome := { output }

/-- Whether there is an error or an exception. -/
def isFailure (outcome : Outcome) : Bool :=
  !outcome.errors.isEmpty || !outcome.exceptions.isEmpty

/-- Whether there is neither an error nor an exception. -/
def isSuccess (outcome : Outcome) : Bool :=
  !outcome.isFailure

/-- The output, unless the outcome is a failure. -/
def checkedOutput (outcome : Outcome) : Except EngineError Json :=
  if outcome.isFailure then .error .outputOnFailure else .ok outcome.output

/-- Errors and exceptions together; where both have a key, the exceptions count. -/
def failures (outcome : Outcome) : Entries (List Json) :=
  outcome.errors.putAll (outcome.exceptions.map fun (key, texts) => (key, texts.map .string))

/-! ## Errors -/

/-- Adds `message` to those of `field`. A message that adds nothing leaves no empty field behind. -/
def addError (outcome : Outcome) (field : String) (message : Json) : Outcome :=
  if message.isNull then outcome
  else
    let messages := Messages.absorb ((outcome.errors.at? field).getD []) message
    { outcome with
      errors :=
        if messages.isEmpty then outcome.errors.remove field
        else outcome.errors.put field messages }

/-- Adds several messages in turn. -/
def addErrors (outcome : Outcome) (messages : List (String × Json)) : Outcome :=
  messages.foldl (fun acc (field, message) => acc.addError field message) outcome

/-- Adds the message lists of several fields in turn. -/
def addErrorLists (outcome : Outcome) (errors : Entries (List Json)) : Outcome :=
  outcome.addErrors (errors.map fun (field, messages) => (field, .array messages))

/-! ## Exceptions -/

/-- The name of a step, qualified by the name of its operation if that has one. -/
def qualified (operation : Option String) (step : String) : String :=
  match operation with
  | some operation => operation ++ "#" ++ step
  | none => step

/-- Appends texts to those under `key`. -/
def addExceptionTexts (outcome : Outcome) (key : String) (texts : List String) : Outcome :=
  { outcome with
    exceptions := outcome.exceptions.put key ((outcome.exceptions.at? key).getD [] ++ texts) }

/-- Appends a fault text under the qualified name of a step. -/
def addException (outcome : Outcome) (step text : String) (operation : Option String) : Outcome :=
  outcome.addExceptionTexts (qualified operation step) [text]

/-- Appends the texts of several keys in turn. -/
def addExceptions (outcome : Outcome) (exceptions : List (String × List String)) : Outcome :=
  exceptions.foldl (fun acc (key, texts) => acc.addExceptionTexts key texts) outcome

/-! ## The other fields -/

/-- Stores further data; later values win. -/
def addInformation (outcome : Outcome) (information : List (String × Json)) : Outcome :=
  { outcome with information := outcome.information.placeAll information }

/-- Appends an entry to the trace. -/
def addTrace (outcome : Outcome) (entry : TraceEntry) : Outcome :=
  { outcome with trace := outcome.trace ++ [entry] }

/-- Replaces the output. -/
def setOutput (outcome : Outcome) (output : Json) : Outcome :=
  { outcome with output }

/-- Takes over the errors and exceptions of another outcome, and nothing else of it. -/
def mergeFailures (outcome other : Outcome) : Outcome :=
  (outcome.addErrorLists other.errors).addExceptions other.exceptions

/-! ## Comparison -/

/-- Whether two lists of messages are equal. -/
def sameMessages (a b : List Json) : Bool :=
  Json.sameItems a b

/-- Equality in all five fields; the order of fields and keys does not count, that of messages and
    of the trace does. -/
def same (a b : Outcome) : Bool :=
  Entries.agree sameMessages a.errors b.errors
    && Entries.agree (· == ·) a.exceptions b.exceptions
    && Json.sameFields a.information b.information
    && a.trace == b.trace
    && a.output.same b.output

/-! ## What changes leave alone -/

@[simp] theorem isSuccess_eq_true_iff (outcome : Outcome) :
    outcome.isSuccess = true ↔ outcome.isFailure = false := by
  simp [isSuccess]

@[simp] theorem isFailure_empty : isFailure {} = false := rfl

@[simp] theorem isFailure_addTrace (outcome : Outcome) (entry : TraceEntry) :
    (outcome.addTrace entry).isFailure = outcome.isFailure := rfl

@[simp] theorem isFailure_setOutput (outcome : Outcome) (output : Json) :
    (outcome.setOutput output).isFailure = outcome.isFailure := rfl

@[simp] theorem isFailure_addInformation (outcome : Outcome) (information : List (String × Json)) :
    (outcome.addInformation information).isFailure = outcome.isFailure := rfl

theorem isFailure_addExceptionTexts (outcome : Outcome) (key : String) (texts : List String) :
    (outcome.addExceptionTexts key texts).isFailure = true := by
  simp only [addExceptionTexts, isFailure]
  cases outcome.exceptions with
  | nil => simp [Entries.put]
  | cons entry rest =>
    obtain ⟨k, v⟩ := entry
    by_cases h : k = key <;> simp [Entries.put, h]

theorem isFailure_addException (outcome : Outcome) (step text : String)
    (operation : Option String) :
    (outcome.addException step text operation).isFailure = true :=
  isFailure_addExceptionTexts ..

theorem checkedOutput_eq_ok_iff (outcome : Outcome) (value : Json) :
    outcome.checkedOutput = .ok value ↔ outcome.isSuccess = true ∧ outcome.output = value := by
  simp only [checkedOutput, isSuccess]
  cases outcome.isFailure <;> simp

end Outcome

end OperationPipeline

import OperationPipeline.DataType
import OperationPipeline.Fault

set_option autoImplicit false

/-! # The context of a call

The values that the steps of one call share. Each call starts with an empty context. What
`validate`, `operation` and `operations` steps put out is recorded here under the step's name
followed by `_output`. -/

namespace OperationPipeline

/-- The shared values of a call, sorted by key. -/
structure Context where
  values : Entries Json := []
  deriving Inhabited

/-! ## Values that are stored -/

/-- A value that is to be stored, which may have no JSON form. -/
inductive Storable where
  | json (value : Json)
  /-- A natural number of whatever size. -/
  | natural (n : Nat)
  /-- A floating-point result that is undefined. -/
  | undefinedFloat
  /-- A map whose keys are integers. -/
  | integerKeyed (entries : List (Int × Json))
  /-- A map whose keys are lists. -/
  | listKeyed

/-- The JSON form of a value, or why it has none. Integer keys are written in decimal, and an
    undefined floating-point result is `null`. -/
def Storable.toJson : Storable → Except String Json
  | .json value => .ok value
  | .natural n =>
    if (n : Int) ≤ Number.maxInteger then .ok (.ofNat n) else .error "number out of range"
  | .undefinedFloat => .ok .null
  | .integerKeyed entries => .ok (.ofFields (entries.map fun (key, value) => (toString key, value)))
  | .listKeyed => .error "key must be a string"

namespace Context

/-! ## Reading -/

/-- The value under `key`. -/
def get? (context : Context) (key : String) : Option Json :=
  context.values.at? key

/-- Whether there is a value under `key`. -/
def holds (context : Context) (key : String) : Bool :=
  context.values.holds key

/-- The number of values. -/
def size (context : Context) : Nat :=
  context.values.length

/-- Whether there are no values. -/
def isEmpty (context : Context) : Bool :=
  context.values.isEmpty

/-- The value under `key`, which has to be of the given type if it is there at all. -/
def readAs (context : Context) (key : String) (type : DataType) : Except Fault (Option Json) :=
  match context.get? key with
  | none => .ok none
  | some value =>
    match type.mismatch? value with
    | none => .ok (some value)
    | some reason =>
      .error ((Fault.ofText reason).wrap ("context value '" ++ key ++ "' is not a " ++ type.name))

/-! ## Writing -/

/-- Stores `value` under `key`. -/
def insert (context : Context) (key : String) (value : Json) : Context :=
  ⟨context.values.place key value⟩

/-- Removes the value under `key`. -/
def erase (context : Context) (key : String) : Context :=
  ⟨Entries.remove key context.values⟩

/-- Stores a value under `key` if it has a JSON form; otherwise the context stays as it is. -/
def store (context : Context) (key : String) (value : Storable) : Except Fault Context :=
  match value.toJson with
  | .ok value => .ok (context.insert key value)
  | .error reason =>
    .error ((Fault.ofText reason).wrap ("cannot store '" ++ key ++ "' in the context"))

/-- The value under `key` and the context that holds it: an absent value is stored first. -/
def getOrInsert (context : Context) (key : String) (value : Json) : Json × Context :=
  match context.get? key with
  | some present => (present, context)
  | none => (value, context.insert key value)

/-! ## Output records -/

/-- The key of a step's output record. -/
def outputKey (step : String) : String :=
  step ++ "_output"

/-- The output recorded for a step. -/
def outputOf (context : Context) (step : String) : Option Json :=
  context.get? (outputKey step)

/-- Records the output of a step. -/
def recordOutput (context : Context) (step : String) (output : Json) : Context :=
  context.insert (outputKey step) output

/-! ## Comparison -/

/-- Whether two contexts hold equal values under the same keys. -/
def same (a b : Context) : Bool :=
  Json.sameFields a.values b.values

theorem get?_insert (context : Context) (key other : String) (value : Json) :
    (context.insert key value).get? other
      = if key = other then some value else context.get? other :=
  Entries.at?_place key other value context.values

theorem outputOf_recordOutput (context : Context) (step : String) (output : Json) :
    (context.recordOutput step output).outputOf step = some output := by
  simp [recordOutput, outputOf, get?_insert]

end Context

end OperationPipeline

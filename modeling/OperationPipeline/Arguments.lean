import OperationPipeline.DataType
import OperationPipeline.Fault

set_option autoImplicit false

/-! # The arguments of a call

Params are plain values by name. Dependencies are collaborators that the caller hands over, each at
a type; asking for one at another type than it was handed over at is a fault. -/

namespace OperationPipeline

/-! ## Dependencies -/

/-- A value that was handed over at a type. -/
structure Dependency where
  type : DataType
  value : Json
  deriving Inhabited

/-- The dependencies of a call, by name. -/
structure Dependencies where
  entries : Entries Dependency := []
  deriving Inhabited

namespace Dependencies

/-- Hands over a dependency, in place of any other of that name. -/
def insert (dependencies : Dependencies) (name : String) (dependency : Dependency) :
    Dependencies :=
  ⟨dependencies.entries.place name dependency⟩

/-- The dependency called `name`, if it was handed over at the given type. -/
def get? (dependencies : Dependencies) (name : String) (type : DataType) : Option Json :=
  match dependencies.entries.at? name with
  | some dependency => if dependency.type = type then some dependency.value else none
  | none => none

/-- The dependency called `name` at the given type, or a fault. -/
def require (dependencies : Dependencies) (name : String) (type : DataType) : Except Fault Json :=
  match dependencies.entries.at? name with
  | none => .error (Fault.ofText ("missing dependency '" ++ name ++ "'"))
  | some dependency =>
    if dependency.type = type then .ok dependency.value
    else .error (Fault.ofText ("dependency '" ++ name ++ "' is not a " ++ type.name))

/-- Whether there is a dependency called `name`. -/
def holds (dependencies : Dependencies) (name : String) : Bool :=
  dependencies.entries.holds name

/-- The number of dependencies. -/
def size (dependencies : Dependencies) : Nat :=
  dependencies.entries.length

/-- The names of the dependencies, for inspection. -/
def inspected (dependencies : Dependencies) : String :=
  "Dependencies \x7b names: "
    ++ Text.bracketed "[" "]" (dependencies.entries.keys.map Text.quoted) ++ " \x7d"

theorem require_eq_ok_iff (dependencies : Dependencies) (name : String) (type : DataType)
    (value : Json) :
    dependencies.require name type = .ok value ↔ dependencies.get? name type = some value := by
  simp only [require, get?]
  cases dependencies.entries.at? name with
  | none => simp
  | some dependency => by_cases h : dependency.type = type <;> simp [h]

end Dependencies

/-! ## Arguments -/

/-- The arguments of a call. -/
structure Arguments where
  params : Entries Json := []
  dependencies : Dependencies := {}
  deriving Inhabited

namespace Arguments

/-- Sets the param called `name`. -/
def param (arguments : Arguments) (name : String) (value : Json) : Arguments :=
  { arguments with params := arguments.params.place name value }

/-- Hands over a dependency. -/
def dependency (arguments : Arguments) (name : String) (dependency : Dependency) : Arguments :=
  { arguments with dependencies := arguments.dependencies.insert name dependency }

end Arguments

end OperationPipeline

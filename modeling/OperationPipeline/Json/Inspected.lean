import OperationPipeline.Json.Writer
import OperationPipeline.Text.Quoted

set_option autoImplicit false

/-! # JSON values for inspection

`Json.inspected` names the kind of every value it shows: `Number(1)`, `String("x")`,
`Array [Null]`, `Object {"k": Bool(true)}`. -/

namespace OperationPipeline.Json

/-- Fields between braces, each written `"key": value`. -/
def bracedFields (fields : List (String × String)) : String :=
  Text.bracketed "\x7b" "\x7d" (fields.map fun (key, value) => Text.quoted key ++ ": " ++ value)

mutual

/-- The value with the kinds of its parts. -/
def inspected : Json → String
  | .null => "Null"
  | .bool value => "Bool(" ++ Text.truth value ++ ")"
  | .number value => "Number(" ++ value.text ++ ")"
  | .string text => "String(" ++ Text.quoted text ++ ")"
  | .array items => "Array " ++ Text.bracketed "[" "]" (inspectedItems items)
  | .object fields => "Object " ++ bracedFields (inspectedFields fields)
termination_by structural value => value

/-- The items of an array, each with its kind. -/
def inspectedItems : List Json → List String
  | [] => []
  | value :: rest => inspected value :: inspectedItems rest
termination_by structural items => items

/-- The fields of an object, each value with its kind. -/
def inspectedFields : List (String × Json) → List (String × String)
  | [] => []
  | (key, value) :: rest => (key, inspected value) :: inspectedFields rest
termination_by structural fields => fields

end

end OperationPipeline.Json

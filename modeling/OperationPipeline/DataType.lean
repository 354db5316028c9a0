import OperationPipeline.Json.Writer
import OperationPipeline.Text.Quoted

set_option autoImplicit false

/-! # Data types

The types at which values are asked for: a context value read at a type, a dependency handed over at
a type. A type has a name for messages, and `DataType.mismatch?` says why a JSON value is not of the
type. A value that is of the type represents the typed value as it is. -/

namespace OperationPipeline

/-- The width and sign of an integer type. -/
inductive IntegerType where
  | unsigned8
  | unsigned32
  | signed64
  | unsigned64
  deriving DecidableEq

namespace IntegerType

/-- The name of the type. -/
def name : IntegerType → String
  | .unsigned8 => "u8"
  | .unsigned32 => "u32"
  | .signed64 => "i64"
  | .unsigned64 => "u64"

/-- The least value of the type. -/
def least : IntegerType → Int
  | .signed64 => Number.minInteger
  | _ => 0

/-- The greatest value of the type. -/
def greatest : IntegerType → Int
  | .unsigned8 => Int.pow 2 8 - 1
  | .unsigned32 => Int.pow 2 32 - 1
  | .signed64 => Number.maxSigned
  | .unsigned64 => Number.maxInteger

/-- Whether `n` is a value of the type. -/
def holds (type : IntegerType) (n : Int) : Bool :=
  type.least ≤ n && n ≤ type.greatest

end IntegerType

/-- The type of a value. -/
inductive DataType where
  | bool
  | integer (type : IntegerType)
  | text
  | char
  | unit
  | value
  | option (item : DataType)
  | list (item : DataType)
  | pair (first second : DataType)
  | map (item : DataType)
  deriving DecidableEq, Inhabited

namespace DataType

/-- The full name of a type. -/
def name : DataType → String
  | .bool => "bool"
  | .integer type => type.name
  | .text => "alloc::string::String"
  | .char => "char"
  | .unit => "()"
  | .value => "serde_json::value::Value"
  | .option item => "core::option::Option<" ++ item.name ++ ">"
  | .list item => "alloc::vec::Vec<" ++ item.name ++ ">"
  | .pair first second => "(" ++ first.name ++ ", " ++ second.name ++ ")"
  | .map item =>
    "alloc::collections::btree::map::BTreeMap<alloc::string::String, " ++ item.name ++ ">"

/-- What a value has to be, in words. -/
def expectation : DataType → String
  | .bool => "a boolean"
  | .integer type => type.name
  | .text => "a string"
  | .char => "a character"
  | .unit => "unit"
  | .value => "any valid JSON value"
  | .option _ => "option"
  | .list _ => "a sequence"
  | .pair _ _ => "a tuple of size 2"
  | .map _ => "a map"

end DataType

/-! ## Values that are not of a type -/

namespace Json

/-- What a value is, in words. -/
def described : Json → String
  | .null => "null"
  | .bool value => "boolean `" ++ Text.truth value ++ "`"
  | .number (.integer value) => "integer `" ++ toString value ++ "`"
  | .number (.float value) => "floating point `" ++ value.text .json ++ "`"
  | .string text => "string " ++ Text.quoted text
  | .array _ => "sequence"
  | .object _ => "map"

end Json

namespace DataType

/-- The complaint about a value of another kind. -/
def wrongKind (type : DataType) (value : Json) : Option String :=
  some ("invalid type: " ++ value.described ++ ", expected " ++ type.expectation)

/-- The complaint about a value of the right kind that is out of range. -/
def wrongValue (type : DataType) (value : Json) : Option String :=
  some ("invalid value: " ++ value.described ++ ", expected " ++ type.expectation)

/-- The first complaint about the items of a list. -/
def firstComplaint {α : Type} (complaint : α → Option String) : List α → Option String
  | [] => none
  | item :: rest => (complaint item).or (firstComplaint complaint rest)

/-- Why a value is not of the type; nothing if it is. -/
def mismatch? : DataType → Json → Option String
  | .value, _ => none
  | .bool, .bool _ => none
  | .unit, .null => none
  | .text, .string _ => none
  | .char, .string s => if s.length = 1 then none else wrongValue .char (.string s)
  | .integer type, .number (.integer n) =>
    if type.holds n then none else wrongValue (.integer type) (.number (.integer n))
  | .option _, .null => none
  | .option item, given => item.mismatch? given
  | .list item, .array items => firstComplaint item.mismatch? items
  | .pair first second, .array items =>
    match items with
    | [] => some ("invalid length 0, expected " ++ (pair first second).expectation)
    | [a] =>
      (first.mismatch? a).or
        (some ("invalid length 1, expected " ++ (pair first second).expectation))
    | [a, b] => (first.mismatch? a).or (second.mismatch? b)
    | a :: b :: _ =>
      ((first.mismatch? a).or (second.mismatch? b)).or
        (some ("invalid length " ++ toString items.length
          ++ ", expected fewer elements in array"))
  | .map item, .object fields => firstComplaint (fun field => item.mismatch? field.2) fields
  | type, given => type.wrongKind given

end DataType

end OperationPipeline

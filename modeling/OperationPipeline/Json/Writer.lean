import OperationPipeline.Decimal.Shortest
import OperationPipeline.Json.Basic

set_option autoImplicit false

/-! # Compact JSON text

`Json.compact` writes a value without blanks, as a list of characters underneath. In strings the
quote, the backslash and the characters below U+0020 are escaped, and everything else stands for
itself. -/

namespace OperationPipeline

/-- The decimal text of a number: integers plainly, floating-point numbers by the shortest decimal
    that reads back. -/
def Number.text : Number → String
  | .integer value => toString value
  | .float value => value.text .json

namespace Json

/-- What is written for one character of a string. -/
def escaped (c : Char) : List Char :=
  if c = '"' then ['\\', '"']
  else if c = '\\' then ['\\', '\\']
  else if c = '\x08' then ['\\', 'b']
  else if c = '\x0c' then ['\\', 'f']
  else if c = '\n' then ['\\', 'n']
  else if c = '\r' then ['\\', 'r']
  else if c = '\t' then ['\\', 't']
  else if c.toNat < 0x10 then ['\\', 'u', '0', '0', '0'] ++ Nat.toDigits 16 c.toNat
  else if c.toNat < 0x20 then ['\\', 'u', '0', '0'] ++ Nat.toDigits 16 c.toNat
  else [c]

/-- A string between quotes. -/
def writeString (text : String) : List Char :=
  '"' :: text.toList.flatMap escaped ++ ['"']

/-- Texts separated by commas. -/
def separated : List (List Char) → List Char
  | [] => []
  | [text] => text
  | text :: rest => text ++ ',' :: separated rest

/-- An array of texts that are already written. -/
def writeArray (items : List (List Char)) : List Char :=
  '[' :: separated items ++ [']']

/-- An object of texts that are already written, in the given order. -/
def writeObject (fields : List (String × List Char)) : List Char :=
  '\x7b' :: separated (fields.map fun (key, value) => writeString key ++ ':' :: value) ++ ['\x7d']

mutual

/-- The characters of the compact text of a value. -/
def write : Json → List Char
  | .null => ['n', 'u', 'l', 'l']
  | .bool true => ['t', 'r', 'u', 'e']
  | .bool false => ['f', 'a', 'l', 's', 'e']
  | .number value => value.text.toList
  | .string text => writeString text
  | .array items => writeArray (writeItems items)
  | .object fields => writeObject (writeFields fields)
termination_by structural value => value

/-- The texts of a list of values. -/
def writeItems : List Json → List (List Char)
  | [] => []
  | value :: rest => write value :: writeItems rest
termination_by structural items => items

/-- The texts of the values of an object, under their keys. -/
def writeFields : List (String × Json) → List (String × List Char)
  | [] => []
  | (key, value) :: rest => (key, write value) :: writeFields rest
termination_by structural fields => fields

end

/-- The compact text of a value. -/
def compact (value : Json) : String :=
  String.ofList value.write

theorem writeItems_eq_map (items : List Json) : writeItems items = items.map write := by
  induction items with
  | nil => rfl
  | cons value rest ih => simp [writeItems, ih]

end Json

end OperationPipeline

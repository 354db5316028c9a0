import OperationPipeline.Text.Hidden

set_option autoImplicit false

/-! # Quoted text for inspection

`Text.quoted` writes a text between double quotes so that every character in it can be seen: a few
controls, the backslash and the quote by a short escape, and every character without a visible form
by its code point in hexadecimal, as in `\u{85}`. -/

namespace OperationPipeline.Text

/-- The code point of `c` in lower-case hexadecimal between braces. -/
def codePoint (c : Char) : List Char :=
  '\\' :: 'u' :: '\x7b' :: Nat.toDigits 16 c.toNat ++ ['\x7d']

/-- What is written for one character. -/
def shown (c : Char) : List Char :=
  if c = '\x00' then ['\\', '0']
  else if c = '\t' then ['\\', 't']
  else if c = '\r' then ['\\', 'r']
  else if c = '\n' then ['\\', 'n']
  else if c = '"' then ['\\', '"']
  else if c = '\\' then ['\\', '\\']
  else if isHidden c then codePoint c
  else [c]

/-- `text` between double quotes, with every character in a visible form. -/
def quoted (text : String) : String :=
  String.ofList ('"' :: text.toList.flatMap shown ++ ['"'])

/-- A truth value in words. -/
def truth (value : Bool) : String :=
  if value then "true" else "false"

/-- Items between brackets, separated by a comma and a blank. -/
def bracketed (first last : String) (items : List String) : String :=
  first ++ String.intercalate ", " items ++ last

end OperationPipeline.Text

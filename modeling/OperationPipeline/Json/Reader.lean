import OperationPipeline.Json.Basic

set_option autoImplicit false

/-! # Reading JSON text

`Json.read?` reads one value with nothing but blanks around it. Numbers without a fraction and an
exponent are integers where they fit; `-0` is the negative floating-point zero, and an integer out
of range is the nearest floating-point number. Of repeated keys in an object the last one counts.

The reader consumes a list of characters. Values nest, so it recurses on a bound that the wrapper
takes from the length of the text: every value inside another costs at least one character. -/

namespace OperationPipeline.Json

/-- The rest after the blanks in front. -/
def skipBlanks (text : List Char) : List Char :=
  text.dropWhile fun c => c = ' ' || c = '\n' || c = '\t' || c = '\r'

/-! ## Strings -/

/-- The value of a hexadecimal digit. -/
def hexDigit? (c : Char) : Option Nat :=
  if '0' ≤ c ∧ c ≤ '9' then some (c.toNat - '0'.toNat)
  else if 'a' ≤ c ∧ c ≤ 'f' then some (c.toNat - 'a'.toNat + 10)
  else if 'A' ≤ c ∧ c ≤ 'F' then some (c.toNat - 'A'.toNat + 10)
  else none

/-- The number written by four hexadecimal digits. -/
def hexUnit? (a b c d : Char) : Option Nat := do
  let a ← hexDigit? a
  let b ← hexDigit? b
  let c ← hexDigit? c
  let d ← hexDigit? d
  pure (((a * 16 + b) * 16 + c) * 16 + d)

/-- The character that a letter after a backslash stands for. -/
def shortEscape? : Char → Option Char
  | '"' => some '"'
  | '\\' => some '\\'
  | '/' => some '/'
  | 'b' => some '\x08'
  | 'f' => some '\x0c'
  | 'n' => some '\n'
  | 'r' => some '\r'
  | 't' => some '\t'
  | _ => none

/-- Reads a string after its opening quote; `done` holds the characters so far, last one first.
    An escaped surrogate has to be the first half of a pair. -/
def readString? : List Char → List Char → Option (String × List Char)
  | done, '"' :: rest => some (String.ofList done.reverse, rest)
  | done, '\\' :: 'u' :: a :: b :: c :: d :: rest =>
    match hexUnit? a b c d with
    | none => none
    | some unit =>
      if 0xD800 ≤ unit ∧ unit < 0xDC00 then
        -- the second half of the pair has to follow at once
        match rest with
        | '\\' :: 'u' :: e :: f :: g :: h :: rest' =>
          match hexUnit? e f g h with
          | some low =>
            if 0xDC00 ≤ low ∧ low < 0xE000 then
              readString?
                (Char.ofNat (0x10000 + (unit - 0xD800) * 0x400 + (low - 0xDC00)) :: done) rest'
            else none
          | none => none
        | _ => none
      else if 0xDC00 ≤ unit ∧ unit < 0xE000 then none
      else readString? (Char.ofNat unit :: done) rest
  | done, '\\' :: c :: rest =>
    match shortEscape? c with
    | some char => readString? (char :: done) rest
    | none => none
  | done, c :: rest => if c.toNat < 0x20 then none else readString? (c :: done) rest
  | _, [] => none
termination_by _ text => text.length

/-! ## Numbers -/

/-- The number written by decimal digits. -/
def digitsValue (digits : List Char) : Nat :=
  digits.foldl (fun acc c => acc * 10 + (c.toNat - '0'.toNat)) 0

/-- The digits in front and the rest. -/
def readDigits (text : List Char) : List Char × List Char :=
  text.span Char.isDigit

/-- The fraction after the integer part: its digits, or nothing. -/
def readFraction? : List Char → Option (List Char × List Char)
  | '.' :: rest =>
    match readDigits rest with
    | ([], _) => none
    | (digits, rest) => some (digits, rest)
  | rest => some ([], rest)

/-- The exponent after the fraction, if there is one. -/
def readExponent? : List Char → Option (Option Int × List Char)
  | c :: rest =>
    if c = 'e' ∨ c = 'E' then
      let (sign, rest) : Int × List Char := match rest with
        | '-' :: rest => (-1, rest)
        | '+' :: rest => (1, rest)
        | rest => (1, rest)
      match readDigits rest with
      | ([], _) => none
      | (digits, rest) => some (some (sign * digitsValue digits), rest)
    else some (none, c :: rest)
  | [] => some (none, [])

/-- Exponents further from zero than this read as zero or as out of range. -/
def exponentBound : Int := 100000

/-- A floating-point number from its parts, unless it is out of range. -/
def floatOf? (negative : Bool) (digits : Nat) (exponent : Int) : Option Number :=
  let exponent := max (-exponentBound) (min exponentBound exponent)
  let value := Binary64.ofDecimal negative digits exponent
  if value.isFinite then some (.float value) else none

/-- The number of an integer part, a fraction and an exponent. -/
def numberOf? (negative : Bool) (whole fraction : List Char) (exponent : Option Int) :
    Option Number :=
  let digits := digitsValue (whole ++ fraction)
  if fraction.isEmpty && exponent.isNone then
    let value : Int := if negative then -digits else digits
    -- there is no integer minus zero
    if negative && digits == 0 then floatOf? negative 0 0
    else if Number.minInteger ≤ value && value ≤ Number.maxInteger then some (.integer value)
    else floatOf? negative digits 0
  else floatOf? negative digits (exponent.getD 0 - fraction.length)

/-- Reads a number; an integer part of several digits does not start with zero. -/
def readNumber? (text : List Char) : Option (Number × List Char) := do
  let (negative, text) := match text with
    | '-' :: rest => (true, rest)
    | rest => (false, rest)
  let (whole, text) := readDigits text
  if whole.isEmpty || (whole.head? == some '0' && whole.length > 1) then none
  let (fraction, text) ← readFraction? text
  let (exponent, text) ← readExponent? text
  let number ← numberOf? negative whole fraction exponent
  pure (number, text)

/-! ## Values -/

/-- The rest after the word `expected`, if the text starts with it. -/
def afterWord? : List Char → List Char → Option (List Char)
  | [], text => some text
  | c :: expected, d :: text => if c = d then afterWord? expected text else none
  | _ :: _, [] => none

mutual

/-- Reads a value with no blanks in front, nested at most `bound` deep. -/
def readValue? : Nat → List Char → Option (Json × List Char)
  | 0, _ => none
  | bound + 1, text =>
    match text with
    | '"' :: rest => (readString? [] rest).map fun (s, rest) => (.string s, rest)
    | '[' :: rest =>
      match skipBlanks rest with
      | ']' :: rest => some (.array [], rest)
      | rest => (readItems? bound rest).map fun (items, rest) => (.array items, rest)
    | '\x7b' :: rest =>
      match skipBlanks rest with
      | '\x7d' :: rest => some (.object [], rest)
      | rest => (readFields? bound [] rest).map fun (fields, rest) => (.object fields, rest)
    | 'n' :: rest => (afterWord? ['u', 'l', 'l'] rest).map fun rest => (.null, rest)
    | 't' :: rest => (afterWord? ['r', 'u', 'e'] rest).map fun rest => (.bool true, rest)
    | 'f' :: rest => (afterWord? ['a', 'l', 's', 'e'] rest).map fun rest => (.bool false, rest)
    | text => (readNumber? text).map fun (n, rest) => (.number n, rest)

/-- Reads the items of an array up to its closing bracket; there is at least one. -/
def readItems? : Nat → List Char → Option (List Json × List Char)
  | 0, _ => none
  | bound + 1, text => do
    let (item, rest) ← readValue? bound text
    match skipBlanks rest with
    | ',' :: rest =>
      let (items, rest) ← readItems? bound (skipBlanks rest)
      pure (item :: items, rest)
    | ']' :: rest => pure ([item], rest)
    | _ => none

/-- Reads the fields of an object up to its closing brace, into those read before. -/
def readFields? : Nat → Entries Json → List Char → Option (Entries Json × List Char)
  | 0, _, _ => none
  | bound + 1, fields, text =>
    match text with
    | '"' :: rest => do
      let (key, rest) ← readString? [] rest
      match skipBlanks rest with
      | ':' :: rest =>
        let (value, rest) ← readValue? bound (skipBlanks rest)
        let fields := Entries.place key value fields
        match skipBlanks rest with
        | ',' :: rest => readFields? bound fields (skipBlanks rest)
        | '\x7d' :: rest => pure (fields, rest)
        | _ => none
      | _ => none
    | _ => none

end

/-- Reads a text that holds one value and blanks around it. -/
def read? (text : String) : Option Json :=
  let chars := text.toList
  match readValue? (chars.length + 1) (skipBlanks chars) with
  | some (value, rest) => if (skipBlanks rest).isEmpty then some value else none
  | none => none

end OperationPipeline.Json

set_option autoImplicit false

/-! # Blank text

The characters with the Unicode property White_Space, and texts that consist of nothing else. -/

namespace OperationPipeline.Text

/-- Ranges of code points with the property White_Space. -/
def blankRanges : List (Nat × Nat) :=
  [(0x9, 0xD), (0x20, 0x20), (0x85, 0x85), (0xA0, 0xA0), (0x1680, 0x1680), (0x2000, 0x200A),
   (0x2028, 0x2029), (0x202F, 0x202F), (0x205F, 0x205F), (0x3000, 0x3000)]

/-- Whether `c` has the property White_Space. -/
def isBlankChar (c : Char) : Bool :=
  blankRanges.any fun (low, high) => low ≤ c.toNat && c.toNat ≤ high

/-- Whether nothing is left of `text` once blanks are trimmed from both ends. -/
def isBlank (text : String) : Bool :=
  text.toList.all isBlankChar

/-- There are twenty-five blank characters. -/
example : (blankRanges.map fun (low, high) => high + 1 - low).sum = 25 := by decide

end OperationPipeline.Text

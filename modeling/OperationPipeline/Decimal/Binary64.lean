set_option autoImplicit false

/-! # Binary floating-point numbers by bit pattern

A 64-bit binary floating-point number is kept as its bit pattern, so that equality of values is
decidable and its decimal text can be computed in exact natural-number arithmetic. Only finite
patterns occur in the data of this library. -/

namespace OperationPipeline

/-- A 64-bit binary floating-point number, by its bit pattern. -/
structure Binary64 where
  bits : UInt64
  deriving DecidableEq, Inhabited

namespace Binary64

/-- Whether the sign bit is set. -/
def negative (x : Binary64) : Bool :=
  x.bits >>> 63 == 1

/-- Whether the number is one of the two zeros. -/
def isZero (x : Binary64) : Bool :=
  x.bits <<< 1 == 0

/-- The eleven bits of the exponent. -/
def exponentField (x : Binary64) : Nat :=
  ((x.bits >>> 52) &&& 0x7FF).toNat

/-- The fifty-two bits of the fraction. -/
def fractionField (x : Binary64) : Nat :=
  (x.bits &&& 0xFFFFFFFFFFFFF).toNat

/-- The integer significand: the fraction with its leading bit, which subnormal numbers lack. -/
def significand (x : Binary64) : Nat :=
  if x.exponentField = 0 then x.fractionField else x.fractionField + Nat.pow 2 52

/-- The exponent of the significand's unit: the magnitude is
    `significand * 2 ^ scale / 2 ^ 1075`. -/
def scale (x : Binary64) : Nat :=
  max x.exponentField 1

/-- Whether the number is neither infinite nor an undefined result. -/
def isFinite (x : Binary64) : Bool :=
  x.exponentField != 0x7FF

/-- Numeric equality of finite numbers: equal patterns, or two zeros of whatever sign. -/
def same (x y : Binary64) : Bool :=
  x.bits == y.bits || (x.isZero && y.isZero)

/-- The number nearest to `digits * 10 ^ exponent`, ties to the even significand. -/
def ofDecimal (negative : Bool) (digits : Nat) (exponent : Int) : Binary64 :=
  let magnitude := match exponent with
    | .ofNat up => Float.ofScientific digits false up
    | .negSucc down => Float.ofScientific digits true (down + 1)
  ⟨(if negative then -magnitude else magnitude).toBits⟩

theorem same_refl (x : Binary64) : x.same x = true := by
  simp [same]

theorem same_trans {x y z : Binary64} (h : x.same y = true) (h' : y.same z = true) :
    x.same z = true := by
  simp only [same, isZero, Bool.or_eq_true, Bool.and_eq_true, beq_iff_eq] at h h' ⊢
  rcases h with h | ⟨hx, hy⟩
  · rcases h' with h' | ⟨hy, hz⟩
    · exact .inl (h.trans h')
    · exact .inr ⟨h ▸ hy, hz⟩
  · rcases h' with h' | ⟨-, hz⟩
    · exact .inr ⟨hx, h' ▸ hy⟩
    · exact .inr ⟨hx, hz⟩

theorem same_comm (x y : Binary64) : x.same y = y.same x := by
  simp [same, Bool.and_comm, Bool.beq_comm (a := x.bits)]

end Binary64

end OperationPipeline

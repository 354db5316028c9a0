import OperationPipeline.Decimal.Binary64

set_option autoImplicit false

/-! # The shortest decimal that reads back

`Binary64.shortest` gives the decimal number with the fewest digits among those that round to a
given floating-point number, and of those the nearest one. It looks for a multiple of a power of
ten inside the interval of reals that round to the number, from coarse grids to fine ones, in exact
arithmetic on naturals. `DecimalLayout.text` then writes such a decimal. -/

namespace OperationPipeline

/-- The decimal number `digits * 10 ^ exponent`. -/
structure Decimal where
  digits : Nat
  exponent : Int
  deriving DecidableEq, Repr

namespace Decimal

/-- The number of decimal digits of `n`; zero has one. -/
def digitCount (n : Nat) : Nat :=
  (Nat.toDigits 10 n).length

/-- Drops trailing zeros, at most `fuel` of them. -/
def dropZeros : Nat → Decimal → Decimal
  | 0, d => d
  | fuel + 1, d =>
    if d.digits ≠ 0 ∧ d.digits % 10 = 0 then dropZeros fuel ⟨d.digits / 10, d.exponent + 1⟩ else d

/-- The same number without trailing zeros. -/
def trimmed (d : Decimal) : Decimal :=
  dropZeros (digitCount d.digits) d

end Decimal

namespace Binary64

/-- The magnitude as a fraction over `2 ^ 1077`, with the two ends of the interval of reals that
    round to it. The lower gap is half as wide where the significand is a power of two. -/
structure Interval where
  low : Nat
  value : Nat
  high : Nat
  /-- Whether the ends themselves round to the number. -/
  closed : Bool

/-- The rounding interval of `x`. -/
def interval (x : Binary64) : Interval :=
  let unit := Nat.pow 2 x.scale
  let below := if x.fractionField = 0 ∧ 1 < x.exponentField then 1 else 2
  { low := (4 * x.significand - below) * unit
    value := 4 * x.significand * unit
    high := (4 * x.significand + 2) * unit
    closed := x.significand % 2 == 0 }

/-- The common denominator of an interval's three numbers. -/
def Interval.denominator : Nat := Nat.pow 2 1077

/-- Whether `digits * up / down` lies in the interval. -/
def Interval.holds (i : Interval) (digits up down : Nat) : Bool :=
  let point := digits * up * denominator
  if i.closed then i.low * down ≤ point && point ≤ i.high * down
  else i.low * down < point && point < i.high * down

/-- The best multiple of `10 ^ exponent` inside the interval, if there is one: of the two
    neighbours of the value the nearer, and of two equally near the even one. -/
def Interval.onGrid? (i : Interval) (exponent : Int) : Option Decimal :=
  let up := Nat.pow 10 exponent.toNat
  let down := Nat.pow 10 (-exponent).toNat
  let unit := up * denominator
  let floor := i.value * down / unit
  let rest := i.value * down % unit
  let lower := i.holds floor up down
  let upper := rest != 0 && i.holds (floor + 1) up down
  match lower, upper with
  | false, false => none
  | true, false => some ⟨floor, exponent⟩
  | false, true => some ⟨floor + 1, exponent⟩
  | true, true =>
    if 2 * rest < unit then some ⟨floor, exponent⟩
    else if unit < 2 * rest then some ⟨floor + 1, exponent⟩
    else some ⟨floor + floor % 2, exponent⟩

/-- The position of the decimal point before the first significant digit: the magnitude is below
    `10 ^ point` and not below `10 ^ (point - 1)`. -/
def Interval.point (i : Interval) : Int :=
  (Decimal.digitCount (i.value * Nat.pow 10 400 / denominator) : Int) - 400

/-- Tries grids from `exponent` downwards, `tries` of them. -/
def Interval.search (i : Interval) : Nat → Int → Decimal
  | 0, exponent => ⟨i.value * Nat.pow 10 (-exponent).toNat / denominator, exponent⟩
  | tries + 1, exponent =>
    match i.onGrid? exponent with
    | some d => d
    | none => i.search tries (exponent - 1)

/-- What is found on a grid lies on the grid and rounds to the number. -/
theorem Interval.holds_of_onGrid? {i : Interval} {exponent : Int} {d : Decimal}
    (h : i.onGrid? exponent = some d) :
    d.exponent = exponent
      ∧ i.holds d.digits (Nat.pow 10 exponent.toNat) (Nat.pow 10 (-exponent).toNat) = true := by
  simp only [onGrid?] at h
  generalize Nat.pow 10 exponent.toNat = up at h ⊢
  generalize Nat.pow 10 (-exponent).toNat = down at h ⊢
  generalize up * denominator = unit at h
  generalize i.value * down / unit = floor at h
  generalize i.value * down % unit = rest at h
  split at h
  · cases h
  · rename_i hlower _
    cases h
    exact ⟨rfl, hlower⟩
  · rename_i _ hupper
    cases h
    exact ⟨rfl, (Bool.and_eq_true_iff.1 hupper).2⟩
  · rename_i hlower hupper
    have hnext := (Bool.and_eq_true_iff.1 hupper).2
    split at h
    · cases h
      exact ⟨rfl, hlower⟩
    · split at h
      · cases h
        exact ⟨rfl, hnext⟩
      · cases h
        -- the even one of the two neighbours is one of them
        have hdigits : floor + floor % 2 = floor ∨ floor + floor % 2 = floor + 1 := by omega
        rcases hdigits with hdigits | hdigits
        · exact ⟨rfl, by rw [hdigits]; exact hlower⟩
        · exact ⟨rfl, by rw [hdigits]; exact hnext⟩

/-- The shortest decimal that reads back as the magnitude of a nonzero `x`; seventeen digits are
    always enough. -/
def shortest (x : Binary64) : Decimal :=
  (x.interval.search 17 (x.interval.point - 1)).trimmed

end Binary64

/-! ## Writing -/

/-- Which decimals are written positionally: those whose point stands more than `least` and at most
    `most` places to the right of where the digits begin. All others are written with an
    exponent. -/
structure DecimalLayout where
  least : Int
  most : Int

namespace DecimalLayout

/-- The layout of numbers in JSON text: positional from `0.00001` up to sixteen digits before the
    point. -/
def json : DecimalLayout := ⟨-5, 16⟩

/-- Whether a decimal with its point at `point` is written positionally. -/
def admits (layout : DecimalLayout) (point : Int) : Bool :=
  layout.least < point && point ≤ layout.most

/-- The text of an exponent, which always has a sign. -/
def exponentText (exponent : Int) : List Char :=
  (if 0 ≤ exponent then ['+'] else []) ++ (toString exponent).toList

/-- The text of a decimal; whole numbers end in `.0` unless an exponent is written. -/
def text (layout : DecimalLayout) (d : Decimal) : String :=
  let digits := Nat.toDigits 10 d.digits
  let count := digits.length
  let point := (count : Int) + d.exponent
  String.ofList <|
    if layout.admits point then
      if point ≤ 0 then '0' :: '.' :: List.replicate (-point).toNat '0' ++ digits
      else if (count : Int) ≤ point then
        digits ++ List.replicate (point - count).toNat '0' ++ ['.', '0']
      else digits.take point.toNat ++ '.' :: digits.drop point.toNat
    else
      let fraction := if count = 1 then [] else '.' :: digits.drop 1
      digits.take 1 ++ fraction ++ 'e' :: exponentText (point - 1)

end DecimalLayout

/-- The text of a finite floating-point number in the given layout; both zeros keep their sign. -/
def Binary64.text (layout : DecimalLayout) (x : Binary64) : String :=
  (if x.negative then "-" else "") ++
    (if x.isZero then "0.0" else layout.text x.shortest)

end OperationPipeline

import OperationPipeline.Decimal.Binary64
import OperationPipeline.Entries

set_option autoImplicit false

/-! # JSON values

The plain data that flows through a pipeline: params, context values, error messages, information
and outputs. Whole numbers are integers between `-2^63` and `2^64 - 1` and differ from
floating-point numbers (`1` is not `1.0`); the fields of an object are sorted by key.

`Json.same` is the equality that the rest of the library decides with. It is finer than nothing but
the bit pattern of zero: the two floating-point zeros are the same number. -/

namespace OperationPipeline

/-- A JSON number. -/
inductive Number where
  | integer (value : Int)
  | float (value : Binary64)
  deriving DecidableEq, Inhabited

/-- A JSON value. -/
inductive Json where
  | null
  | bool (value : Bool)
  | number (value : Number)
  | string (text : String)
  | array (items : List Json)
  | object (fields : List (String × Json))
  deriving Inhabited

/-! ## Numbers -/

namespace Number

/-- The least integer that a number can be. -/
def minInteger : Int := -(Int.pow 2 63)

/-- The greatest signed integer. -/
def maxSigned : Int := Int.pow 2 63 - 1

/-- The greatest integer that a number can be. -/
def maxInteger : Int := Int.pow 2 64 - 1

/-- Numeric equality; an integer is never equal to a floating-point number. -/
def same : Number → Number → Bool
  | .integer a, .integer b => a == b
  | .float a, .float b => a.same b
  | _, _ => false

/-- The value as a signed 64-bit integer, if it is one. -/
def signed? : Number → Option Int
  | .integer value => if value ≤ maxSigned then some value else none
  | .float _ => none

/-- The value as an unsigned 64-bit integer, if it is one. -/
def unsigned? : Number → Option Nat
  | .integer value => if 0 ≤ value then some value.toNat else none
  | .float _ => none

theorem same_refl (a : Number) : a.same a = true := by
  cases a <;> simp [same, Binary64.same_refl]

theorem same_comm (a b : Number) : a.same b = b.same a := by
  cases a <;> cases b <;> simp [same, Binary64.same_comm, Bool.beq_comm]

theorem same_trans {a b c : Number} (h : a.same b = true) (h' : b.same c = true) :
    a.same c = true := by
  cases a <;> cases b <;> cases c <;> simp_all [same]
  exact Binary64.same_trans h h'

end Number

/-! ## Values -/

namespace Json

/-- The integer `n` as a value. -/
def ofInt (n : Int) : Json := .number (.integer n)

/-- The number `n` as a value. -/
def ofNat (n : Nat) : Json := .number (.integer n)

/-- Whether the value is `null`. -/
def isNull : Json → Bool
  | .null => true
  | _ => false

/-- The value as a signed 64-bit integer, if it is one. -/
def signed? : Json → Option Int
  | .number n => n.signed?
  | _ => none

/-- The value as an unsigned 64-bit integer, if it is one. -/
def unsigned? : Json → Option Nat
  | .number n => n.unsigned?
  | _ => none

/-- The text of a string value. -/
def text? : Json → Option String
  | .string text => some text
  | _ => none

/-- The object with the given fields; of several values for one key the last one counts. -/
def ofFields (fields : List (String × Json)) : Json :=
  .object (Entries.sorted fields)

/-! ## Equality -/

mutual

/-- Whether two values are equal, numbers by their numeric value. -/
def same : Json → Json → Bool
  | .null, .null => true
  | .bool a, .bool b => a == b
  | .number a, .number b => a.same b
  | .string a, .string b => a == b
  | .array a, .array b => sameItems a b
  | .object a, .object b => sameFields a b
  | _, _ => false
termination_by structural a => a

/-- Whether two lists are equal item by item. -/
def sameItems : List Json → List Json → Bool
  | [], [] => true
  | a :: as, b :: bs => a.same b && sameItems as bs
  | _, _ => false
termination_by structural a => a

/-- Whether two objects have the same keys with equal values. -/
def sameFields : List (String × Json) → List (String × Json) → Bool
  | [], [] => true
  | (k, a) :: as, (l, b) :: bs => k == l && a.same b && sameFields as bs
  | _, _ => false
termination_by structural a => a

end

mutual

theorem same_refl : (a : Json) → a.same a = true
  | .null => rfl
  | .bool b => by simp [same]
  | .number n => by simp [same, Number.same_refl]
  | .string s => by simp [same]
  | .array items => by simpa [same] using sameItems_refl items
  | .object fields => by simpa [same] using sameFields_refl fields

theorem sameItems_refl : (items : List Json) → sameItems items items = true
  | [] => rfl
  | a :: rest => by simp [sameItems, same_refl a, sameItems_refl rest]

theorem sameFields_refl : (fields : List (String × Json)) → sameFields fields fields = true
  | [] => rfl
  | (k, a) :: rest => by simp [sameFields, same_refl a, sameFields_refl rest]

end

mutual

theorem same_comm : (a b : Json) → a.same b = b.same a
  | .null, b => by cases b <;> rfl
  | .bool x, b => by cases b <;> simp [same, Bool.beq_comm]
  | .number x, b => by cases b <;> simp [same, Number.same_comm x]
  | .string s, b => by cases b <;> simp [same, Bool.beq_comm]
  | .array items, b => by cases b <;> simp [same, sameItems_comm items]
  | .object fields, b => by cases b <;> simp [same, sameFields_comm fields]

theorem sameItems_comm : (as bs : List Json) → sameItems as bs = sameItems bs as
  | [], bs => by cases bs <;> rfl
  | a :: as, bs => by
    cases bs with
    | nil => rfl
    | cons b bs => simp [sameItems, same_comm a b, sameItems_comm as bs]

theorem sameFields_comm : (as bs : List (String × Json)) → sameFields as bs = sameFields bs as
  | [], bs => by cases bs <;> rfl
  | (k, a) :: as, bs => by
    cases bs with
    | nil => rfl
    | cons field bs =>
      obtain ⟨l, b⟩ := field
      simp [sameFields, same_comm a b, sameFields_comm as bs, Bool.beq_comm (a := k)]

end

mutual

theorem same_trans : (a b c : Json) → a.same b = true → b.same c = true → a.same c = true
  | .null, b, c => by cases b <;> cases c <;> simp [same]
  | .bool x, b, c => by cases b <;> cases c <;> simp_all [same]
  | .number x, b, c => by
    intro h h'
    cases b <;> cases c <;> simp only [same, Bool.false_eq_true] at h h' ⊢
    exact Number.same_trans h h'
  | .string s, b, c => by cases b <;> cases c <;> simp_all [same]
  | .array items, b, c => by
    intro h h'
    cases b <;> cases c <;> simp only [same, Bool.false_eq_true] at h h' ⊢
    exact sameItems_trans _ _ _ h h'
  | .object fields, b, c => by
    intro h h'
    cases b <;> cases c <;> simp only [same, Bool.false_eq_true] at h h' ⊢
    exact sameFields_trans _ _ _ h h'

theorem sameItems_trans : (as bs cs : List Json) →
    sameItems as bs = true → sameItems bs cs = true → sameItems as cs = true
  | [], bs, cs => by cases bs <;> simp [sameItems]
  | a :: as, bs, cs => by
    cases bs with
    | nil => simp [sameItems]
    | cons b bs =>
      cases cs with
      | nil => simp [sameItems]
      | cons c cs =>
        simp only [sameItems, Bool.and_eq_true]
        exact fun h h' => ⟨same_trans a b c h.1 h'.1, sameItems_trans as bs cs h.2 h'.2⟩

theorem sameFields_trans : (as bs cs : List (String × Json)) →
    sameFields as bs = true → sameFields bs cs = true → sameFields as cs = true
  | [], bs, cs => by cases bs <;> simp [sameFields]
  | (k, a) :: as, bs, cs => by
    cases bs with
    | nil => simp [sameFields]
    | cons field bs =>
      obtain ⟨l, b⟩ := field
      cases cs with
      | nil => simp [sameFields]
      | cons field cs =>
        obtain ⟨m, c⟩ := field
        simp only [sameFields, Bool.and_eq_true, beq_iff_eq]
        exact fun h h' => ⟨⟨h.1.1.trans h'.1.1, same_trans a b c h.1.2 h'.1.2⟩,
          sameFields_trans as bs cs h.2 h'.2⟩

end

end Json

end OperationPipeline

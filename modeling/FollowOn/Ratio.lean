import FollowOn.Amount
import FollowOn.Decimal.Layout

namespace FollowOn

/-!
# Fixed-point ratios

A ratio counts millionths. It enters as a binary floating-point number and is
rounded to the nearest millionth once, on the way in; everything that is
computed with it afterwards is integer arithmetic. `Ratio.applyTo` multiplies
an amount by a ratio, rounding down.
-/

/-- A ratio in millionths. -/
structure Ratio where
  micros : Int
deriving Repr, DecidableEq, Inhabited

/-- Why a floating-point number is no ratio. -/
inductive RatioIssue where
  /-- It is infinite or not a number. -/
  | notFinite (value : Binary64)
  /-- Its millionths do not fit in 64 bits. -/
  | outOfRange (value : Binary64)
  /-- Any other reason, in the words of the caller. -/
  | remark (text : String)
deriving Repr, DecidableEq

def RatioIssue.message : RatioIssue → String
  | .notFinite value => s!"{value.describe} is not a finite number"
  | .outOfRange value => s!"{value.describe} is out of range"
  | .remark text => text

namespace Ratio

/-- Millionths in one. -/
def scale : Int := 1000000

def zero : Ratio := ⟨0⟩

def one : Ratio := ⟨scale⟩

/--
Read a floating-point number as a ratio.

The number is multiplied by a million in floating point, and the product is
rounded to a whole number, halves going away from zero. A magnitude of
`2 ^ 63` millionths or more is refused, also on the negative side.
-/
def ofBinary64? (value : Binary64) : Except RatioIssue Ratio :=
  match value with
  | .finite _ _ =>
      match (value.mul (.ofInt scale)).round? with
      | some micros =>
          if micros.natAbs < 2 ^ 63 then
            .ok ⟨micros⟩
          else
            .error (.outOfRange value)
      | none => .error (.outOfRange value)
  | special => .error (.notFinite special)

/-- The floating-point number closest to a ratio: its millionths by a million. -/
def toBinary64 (ratio : Ratio) : Binary64 :=
  (Binary64.ofInt ratio.micros).div (.ofInt scale)

def isNegative (ratio : Ratio) : Bool :=
  decide (ratio.micros < 0)

/-- An amount multiplied by a ratio, rounded down and saturated. -/
def applyTo
    (ratio : Ratio)
    (amount : Int) :
    Int :=
  Amount.saturate (amount * ratio.micros / scale)

/-- Ratios are compared by their millionths. -/
instance : Ord Ratio where
  compare left right := compare left.micros right.micros

/-- A product is an amount in range. -/
theorem inRange_applyTo
    (ratio : Ratio)
    (amount : Int) :
    Amount.InRange (ratio.applyTo amount) :=
  Amount.inRange_saturate _

/-- A ratio of one leaves an amount as it is. -/
theorem one_applyTo
    {amount : Int}
    (inRange : Amount.InRange amount) :
    one.applyTo amount = amount := by
  have whole : amount * scale / scale = amount :=
    Int.mul_ediv_cancel amount (by decide)
  simp only [applyTo, one, whole]
  exact Amount.saturate_of_inRange inRange

/-- Of more a ratio that is not below zero is no less. -/
theorem applyTo_mono
    {ratio : Ratio}
    (notNegative : 0 ≤ ratio.micros)
    {left right : Int}
    (ordered : left ≤ right) :
    ratio.applyTo left ≤ ratio.applyTo right := by
  apply Amount.saturate_mono
  exact Int.ediv_le_ediv (by decide)
    (Int.mul_le_mul_of_nonneg_right ordered notNegative)

end Ratio

end FollowOn

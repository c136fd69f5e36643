import FollowOn.Arithmetic

namespace FollowOn

/-!
# Amounts of money

Amounts are whole minor currency units, held as integers. A stored amount
lies in the range of signed 64-bit numbers; arithmetic in between is exact and
`saturate` brings a result back into the range.
-/

namespace Amount

def least : Int := -2 ^ 63

def greatest : Int := 2 ^ 63 - 1

/-- Amounts are words of 64 bits with a sign. -/
def InRange (amount : Int) : Prop :=
  least ≤ amount ∧ amount ≤ greatest

instance (amount : Int) : Decidable (InRange amount) :=
  inferInstanceAs (Decidable (_ ∧ _))

/-- The amount in range that is closest to `amount`. -/
def saturate (amount : Int) : Int :=
  max least (min amount greatest)

/-- How far two amounts are apart, at most the greatest amount. -/
def distance (left right : Int) : Int :=
  min (left - right).natAbs greatest

/-- What is saturated is in range. -/
theorem inRange_saturate
    (amount : Int) :
    InRange (saturate amount) := by
  simp only [InRange, saturate, least, greatest]
  omega

/-- An amount in range is not cut off. -/
theorem saturate_of_inRange
    {amount : Int}
    (inRange : InRange amount) :
    saturate amount = amount := by
  simp only [InRange, saturate, least, greatest] at *
  omega

/-- Cutting off keeps the order. -/
theorem saturate_mono
    {left right : Int}
    (ordered : left ≤ right) :
    saturate left ≤ saturate right := by
  simp only [saturate, least, greatest]
  omega

end Amount

end FollowOn

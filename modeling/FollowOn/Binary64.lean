import FollowOn.BitLength
import FollowOn.Rounding

namespace FollowOn

/-!
# Binary floating-point numbers of 64 bits

Every finite binary64 number is a whole multiple of the least positive one,
`2 ^ -1074`. A finite number is therefore held as a sign and a count of these
units, and arithmetic is exact arithmetic on natural numbers followed by one
rounding: `nearest` maps a quotient to the number closest to it, ties going
to the even significand, and every operation is defined through it.
-/

/-- A binary64 number; a finite one counts units of `2 ^ -1074`. -/
inductive Binary64 where
  | nan
  | infinite (negative : Bool)
  | finite (negative : Bool) (units : Nat)
deriving Repr, DecidableEq, Inhabited

namespace Binary64

/-- Number of units in one: the value of a unit is the inverse of this. -/
@[irreducible] def unitsPerOne : Nat := 2 ^ 1074

/-- One has units. -/
theorem unitsPerOne_pos : 0 < unitsPerOne := by
  unfold unitsPerOne
  exact Nat.two_pow_pos 1074

/-- Binary digits of a significand. -/
def precision : Nat := 53

/-- Unit counts of finite numbers lie below this. -/
@[irreducible] def unitLimit : Nat := 2 ^ 2098

/-- Zero lies below the limit. -/
theorem unitLimit_pos : 0 < unitLimit := by
  unfold unitLimit
  exact Nat.two_pow_pos 2098

/--
How many binary places a count of units loses when its significand is cut to
the precision of the format.
-/
def scaleOf (units : Nat) : Nat :=
  bitLength units - precision

/--
The number nearest to `numerator / denominator`, with the given sign.

A tie goes to the even significand. What rounds to the unit limit or beyond
is infinite.
-/
def nearest
    (negative : Bool)
    (numerator denominator : Nat) :
    Binary64 :=
  let scaled := numerator * unitsPerOne
  let grid := 2 ^ scaleOf (scaled / denominator)
  let units := roundDiv .even scaled (denominator * grid) * grid
  if units < unitLimit then
    .finite negative units
  else
    .infinite negative

/-- The number nearest to an integer. -/
def ofInt (value : Int) : Binary64 :=
  nearest (decide (value < 0)) value.natAbs 1

/-- Product, rounded once; zero times infinity is undefined. -/
def mul : Binary64 → Binary64 → Binary64
  | .finite left units, .finite right others =>
      nearest (left != right)
        (units * others) (unitsPerOne * unitsPerOne)
  | .finite left units, .infinite right =>
      if units = 0 then .nan else .infinite (left != right)
  | .infinite left, .finite right units =>
      if units = 0 then .nan else .infinite (left != right)
  | .infinite left, .infinite right =>
      .infinite (left != right)
  | _, _ => .nan

/-- Quotient, rounded once; zero by zero and infinity by infinity are undefined. -/
def div : Binary64 → Binary64 → Binary64
  | .finite left units, .finite right others =>
      if others = 0 then
        if units = 0 then .nan else .infinite (left != right)
      else
        nearest (left != right) units others
  | .finite left _, .infinite right =>
      .finite (left != right) 0
  | .infinite left, .finite right _ =>
      .infinite (left != right)
  | _, _ => .nan

/-- The number with the other sign. -/
def neg : Binary64 → Binary64
  | .nan => .nan
  | .infinite negative => .infinite (!negative)
  | .finite negative units => .finite (!negative) units

/-- Sign and magnitude put together as an integer. -/
def signed
    (negative : Bool)
    (magnitude : Nat) :
    Int :=
  if negative then -(magnitude : Int) else magnitude

/-- The whole number nearest to a finite number, halves going away from zero. -/
def round? : Binary64 → Option Int
  | .finite negative units =>
      some (signed negative (roundDiv .up units unitsPerOne))
  | _ => none

/--
The 64-bit word of a number: sign, eleven bits of exponent, fraction.

The scale of a unit count is its exponent field less the leading bit of its
significand, so the two fields add up without distinguishing the subnormal
numbers.
-/
def toWord : Binary64 → Nat
  | .nan => 0x7ff8 * 2 ^ 48
  | .infinite negative =>
      (if negative then 2 ^ 63 else 0) + 0x7ff * 2 ^ 52
  | .finite negative units =>
      let scale := scaleOf units
      (if negative then 2 ^ 63 else 0) +
        scale * 2 ^ 52 + units / 2 ^ scale

/-- Zero by anything is zero. -/
@[simp] theorem nearest_zero
    (negative : Bool)
    (denominator : Nat) :
    nearest negative 0 denominator = .finite negative 0 := by
  have noUnits :
      roundDiv .even 0 (denominator * 2 ^ scaleOf (0 / denominator)) = 0 := by
    simp only [roundDiv, Nat.zero_div, Nat.zero_mod, Nat.mul_zero]
    split
    · rfl
    · split
      · omega
      · rfl
  simp only [nearest, Nat.zero_mul, noUnits]
  exact if_pos unitLimit_pos

end Binary64

end FollowOn

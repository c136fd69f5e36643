import FollowOn.Decimal.Basic

namespace FollowOn

/-!
# The fewest digits that read back

The decimal form of a binary number has the fewest significant digits among
the decimals that `Decimal.toBinary64` maps to that number, and of those with
that many digits it is the nearest to it.

For each count of digits only the two grid points around the number matter:
if any point of the grid reads back, so does one of these two. Seventeen
digits always suffice; the exact expansion stands behind them, so that the
search has an answer by construction.
-/

namespace Decimal

/--
Place of the leading digit of `numerator / denominator`: the greatest power
of ten that does not exceed this positive quotient.
-/
def leadingPlace (numerator denominator : Nat) : Int :=
  if denominator ≤ numerator then
    (digits (numerator / denominator)).length - 1
  else
    -(digits ((denominator - 1) / numerator)).length

/-- The quotient `numerator / denominator` divided by `10 ^ place`, as a pair. -/
def shiftPlaces
    (numerator denominator : Nat) :
    Int → Nat × Nat
  | .ofNat places => (numerator, denominator * 10 ^ places)
  | .negSucc fewer => (numerator * 10 ^ (fewer + 1), denominator)

/-- Whether a decimal number reads back as `number`. -/
def readsBackAs
    (number : Binary64)
    (decimal : Decimal) :
    Bool :=
  decimal.toBinary64 == number

/--
The decimal with `count` digits, nearest to a finite number, that reads back
as it, if there is one.

The nearest grid point comes first, so that its neighbour is taken only when
the nearest point fails.
-/
def withDigits?
    (tie : Tie)
    (negative : Bool)
    (units count : Nat) :
    Option Decimal :=
  let place :=
    leadingPlace units Binary64.unitsPerOne - (count - 1)
  let onGrid := shiftPlaces units Binary64.unitsPerOne place
  let below := onGrid.1 / onGrid.2
  [roundDiv tie onGrid.1 onGrid.2, below, below + 1]
    |>.map (fun significand => Decimal.mk negative significand place)
    |>.find? (readsBackAs (.finite negative units))

/-- The exact decimal expansion of a number of units. -/
def exact
    (negative : Bool)
    (units : Nat) :
    Decimal where
  negative := negative
  significand := units * 5 ^ 1074
  exponent := -1074

/-- The decimal form of a finite number with the fewest digits. -/
def shortest
    (tie : Tie)
    (negative : Bool)
    (units : Nat) :
    Decimal :=
  if units = 0 then
    { negative := negative, significand := 0, exponent := 0 }
  else
    ((List.range' 1 17).findSome?
      (withDigits? tie negative units)).getD
        (exact negative units)

theorem readsBackAs_of_withDigits?
    {tie : Tie}
    {negative : Bool}
    {units count : Nat}
    {decimal : Decimal}
    (found : withDigits? tie negative units count = some decimal) :
    decimal.toBinary64 = .finite negative units := by
  have reads := List.find?_some found
  simpa [readsBackAs] using reads

end Decimal

end FollowOn

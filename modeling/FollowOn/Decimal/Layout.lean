import FollowOn.Decimal.Shortest

namespace FollowOn

/-!
# Written forms of numbers

Where the point of a decimal number goes, when an exponent is written, and how
many places are kept. A `Layout` holds these decisions for one kind of text;
`plain` and `scientific` are the two arrangements it chooses from.
-/

namespace Decimal

/-- Significant digits without the zeros at their end, and how many were cut. -/
def trimmedDigits (number : Decimal) : List Char × Nat :=
  let reversed := (digits number.significand).reverse
  let (zeros, kept) := reversed.span (· = '0')
  (kept.reverse, zeros.length)

/-- Digits before the point in positional form; negative when zeros lead. -/
def pointPlace (number : Decimal) : Int :=
  if number.significand = 0 then
    1
  else
    (digits number.significand).length + number.exponent

/-- Positional form of digits with the point at `point`. -/
def plain
    (wholeEnding : List Char)
    (significant : List Char)
    (point : Int) :
    List Char :=
  if point ≤ 0 then
    '0' :: '.' ::
      (List.replicate (-point).toNat '0' ++ significant)
  else if significant.length ≤ point.toNat then
    significant ++
      List.replicate (point.toNat - significant.length) '0' ++
        wholeEnding
  else
    significant.take point.toNat ++
      '.' :: significant.drop point.toNat

/-- One digit before the point, and the exponent with its sign. -/
def scientific
    (significant : List Char)
    (point : Int) :
    List Char :=
  let exponent := point - 1
  let mantissa :=
    match significant with
    | [] => ['0']
    | [only] => [only]
    | first :: others => first :: '.' :: others
  mantissa ++
    'e' :: (if exponent < 0 then '-' else '+') ::
      digits exponent.natAbs

/-- How a finite number is written. -/
structure Layout where
  /-- Where a value goes that lies half way between two shortest forms. -/
  tie : Tie
  /-- What follows the last digit of a whole number. -/
  wholeEnding : List Char
  /-- Whether a number with its point at this place is written positionally. -/
  positional : Int → Bool

/-- The significant digits of a number; zero keeps one. -/
def significantDigits (number : Decimal) : List Char :=
  if number.significand = 0 then
    ['0']
  else
    number.trimmedDigits.1

def write
    (layout : Layout)
    (number : Decimal) :
    List Char :=
  let point := number.pointPlace
  let body :=
    if layout.positional point then
      plain layout.wholeEnding number.significantDigits point
    else
      scientific number.significantDigits point
  if number.negative then '-' :: body else body

/--
Numbers in structured data: always marked as fractional, positional while the
leading digit stands from the fifth place after the point to the sixteenth
place before it.
-/
def Layout.data : Layout where
  tie := .even
  wholeEnding := ['.', '0']
  positional point := decide (-5 < point ∧ point ≤ 16)

/-- Numbers in messages: always positional, whole numbers without a point. -/
def Layout.message : Layout where
  tie := .up
  wholeEnding := []
  positional _ := true

end Decimal

namespace Binary64

/-- Text of a number in a layout; the special values have names. -/
def text
    (layout : Decimal.Layout)
    (number : Binary64) :
    String :=
  match number with
  | .nan => "NaN"
  | .infinite false => "inf"
  | .infinite true => "-inf"
  | .finite negative units =>
      String.ofList
        ((Decimal.shortest layout.tie negative units).write layout)

def describe (number : Binary64) : String :=
  number.text Decimal.Layout.message

/--
Text of a number with two places after the point.

The exact value is rounded, a half going to the even neighbour, and the sign
stays when the result is zero.
-/
def withTwoPlaces (number : Binary64) : String :=
  match number with
  | .finite negative units =>
      let hundredths := roundDiv .even (units * 100) unitsPerOne
      let whole := Decimal.digits (hundredths / 100)
      let places := Decimal.digits (hundredths % 100)
      let padded := List.replicate (2 - places.length) '0' ++ places
      String.ofList
        ((if negative then ['-'] else []) ++ whole ++ '.' :: padded)
  | special => special.describe

end Binary64

end FollowOn

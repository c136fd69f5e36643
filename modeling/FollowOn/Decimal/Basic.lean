import FollowOn.Binary64

namespace FollowOn

/-!
# Decimal numbers

A signed significand times a power of ten, the binary number nearest to it,
and the reading of decimal text. The power of ten may be far out of the range
of binary64; `toBinary64` settles such numbers without computing the power.
-/

/-- `significand · 10 ^ exponent`, negated when `negative`. -/
structure Decimal where
  negative : Bool
  significand : Nat
  exponent : Int
deriving Repr, DecidableEq, Inhabited

namespace Decimal

/--
The binary number nearest to a decimal one, ties to even.

From `10 ^ 309` on every number is infinite. Below half a unit every number is
zero, and since ten exceeds `2 ^ 3` this is certain once three times the
negative exponent outweighs the binary length of the significand.
-/
def toBinary64 (number : Decimal) : Binary64 :=
  if number.significand = 0 then
    .finite number.negative 0
  else
    match number.exponent with
    | .ofNat places =>
        if 309 ≤ places then
          .infinite number.negative
        else
          Binary64.nearest number.negative
            (number.significand * 10 ^ places) 1
    | .negSucc fewer =>
        let places := fewer + 1
        if bitLength number.significand + 1075 ≤ 3 * places then
          .finite number.negative 0
        else
          Binary64.nearest number.negative
            number.significand (10 ^ places)

/-- The number that a run of decimal digits stands for. -/
def natOfDigits (digits : List Char) : Nat :=
  digits.foldl
    (fun value digit => 10 * value + (digit.toNat - '0'.toNat)) 0

def ofDigits
    (negative : Bool)
    (whole fraction : List Char)
    (exponent : Int) :
    Decimal where
  negative := negative
  significand := natOfDigits (whole ++ fraction)
  exponent := exponent - fraction.length

/-- The digits of a natural number, most significant first. -/
def digits (number : Nat) : List Char :=
  Nat.toDigits 10 number

/-- An optional sign, and what follows it. -/
def splitSign : List Char → Bool × List Char
  | '-' :: rest => (true, rest)
  | '+' :: rest => (false, rest)
  | rest => (false, rest)

/-- The exponent part of a decimal text: nothing, or `e` and an integer. -/
def exponentOf? : List Char → Option Int
  | [] => some 0
  | mark :: rest =>
      if mark = 'e' ∨ mark = 'E' then
        let (negative, places) := splitSign rest
        if places.isEmpty || !places.all Char.isDigit then
          none
        else
          some (Binary64.signed negative (natOfDigits places))
      else
        none

def unsignedOfText?
    (negative : Bool)
    (text : List Char) :
    Option Decimal :=
  let (whole, afterWhole) := text.span Char.isDigit
  let (fraction, afterFraction) :=
    match afterWhole with
    | '.' :: rest => rest.span Char.isDigit
    | rest => ([], rest)
  if whole.isEmpty && fraction.isEmpty then
    none
  else
    (exponentOf? afterFraction).map
      (ofDigits negative whole fraction)

end Decimal

/-- Read a decimal number, `nan`, `inf` or `-inf`. -/
def Binary64.ofText? (text : String) : Option Binary64 :=
  let (negative, body) := Decimal.splitSign text.toList
  match String.ofList body with
  | "nan" => some .nan
  | "inf" => some (.infinite negative)
  | _ => (Decimal.unsignedOfText? negative body).map Decimal.toBinary64

end FollowOn

import FollowOn.Decimal.Basic

namespace FollowOn.Json

/-!
# Digits scaled by a power of ten

The digits of a number are taken up into a significand of 64 bits; digits that
do not fit are left out. The significand becomes a floating-point number, which
is then multiplied or divided by a power of ten. Each of these steps rounds, so
the result may lie beside the number nearest to the digits, the one that
`Decimal.toBinary64` gives.
-/

/-- Digits that were taken up into a word of 64 bits. -/
structure Significand where
  value : Nat
  /-- How many digits at the end were left out. -/
  leftOut : Nat
deriving Repr, DecidableEq

/-- Take up digits behind those taken up before, until one does not fit. -/
def takeUp (value : Nat) : List Char → Significand
  | [] => { value := value, leftOut := 0 }
  | digit :: rest =>
      let longer := 10 * value + (digit.toNat - '0'.toNat)
      if longer < 2 ^ 64 then
        takeUp longer rest
      else
        { value := value, leftOut := rest.length + 1 }

/-- The number nearest to a power of ten. -/
def powerOfTen (places : Nat) : Binary64 :=
  .ofInt (10 ^ places)

/-- No greater power of ten is finite. -/
def greatestPower : Nat := 308

/-- Divide by the greatest power of ten so many times, or until zero is left. -/
def divideOften : Nat → Binary64 → Binary64
  | 0, number => number
  | times + 1, number =>
      if number = .finite false 0 then
        number
      else
        divideOften times (number.div (powerOfTen greatestPower))

/-- A significand by a power of ten; nothing if this is too great a number. -/
def scaled?
    (significand : Nat) :
    Int → Option Binary64
  | .ofNat places =>
      if places ≤ greatestPower then
        match (Binary64.ofInt significand).mul (powerOfTen places) with
        | .infinite _ => none
        | product => some product
      else if significand = 0 then
        some (.finite false 0)
      else
        none
  | .negSucc fewer =>
      let times := fewer / greatestPower
      let divided := divideOften times (.ofInt significand)
      some (divided.div (powerOfTen (fewer % greatestPower + 1)))

/-- The nearest integer that a signed word of 32 bits holds. -/
def clampExponent (exponent : Int) : Int :=
  max (-2 ^ 31) (min (2 ^ 31 - 1) exponent)

/--
A significand by a power of ten whose exponent is the sum of the one that the
place of the point gives and the written one. A written exponent longer than
31 bits is not added: it leaves zero, or too great a number.
-/
def floating?
    (negative : Bool)
    (significand : Nat)
    (placed written : Int) :
    Option Binary64 :=
  if written.natAbs < 2 ^ 31 then
    (scaled? significand (clampExponent (placed + written))).map
      (fun number => if negative then number.neg else number)
  else if significand = 0 ∨ written < 0 then
    some (.finite negative 0)
  else
    none

end FollowOn.Json

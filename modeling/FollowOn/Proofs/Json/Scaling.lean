import FollowOn.Json.Scaling
import FollowOn.Proofs.Decimal.Digits
import FollowOn.Proofs.Decimal.Value

namespace FollowOn.Json

/-!
# Where scaled digits are read exactly

A significand below `2 ^ 53` and a power of ten up to `10 ^ 22` are held
exactly. So if the digits of a number and its exponent stay within these
bounds, only the last multiplication or division rounds, and the result is the
number nearest to the digits.
-/

/-- Digits that follow a number only make it greater. -/
theorem le_ofDigitChars
    (digits : List Char)
    (value : Nat) :
    value ≤ Nat.ofDigitChars 10 digits value := by
  rw [Nat.ofDigitChars_eq_ofDigitChars_zero]
  exact Nat.le_add_right_of_le
    (Nat.le_mul_of_pos_left _ (Nat.pow_pos (by decide)))

/-- Digits that fit in 64 bits are all taken up. -/
theorem takeUp_eq
    {value : Nat}
    {digits : List Char}
    (fits : Nat.ofDigitChars 10 digits value < 2 ^ 64) :
    takeUp value digits =
      { value := Nat.ofDigitChars 10 digits value, leftOut := 0 } := by
  induction digits generalizing value with
  | nil =>
      rfl
  | cons digit rest inductionHypothesis =>
      rw [Nat.ofDigitChars_cons] at fits ⊢
      rw [takeUp,
        if_pos (Nat.lt_of_le_of_lt (le_ofDigitChars rest _) fits),
        inductionHypothesis fits]

/-- Digits before and after the point that fit in 64 bits are all taken up. -/
theorem takeUp_parts
    {whole fraction : List Char}
    (fits : Decimal.natOfDigits (whole ++ fraction) < 2 ^ 64) :
    takeUp 0 whole =
        { value := Decimal.natOfDigits whole, leftOut := 0 } ∧
      takeUp (Decimal.natOfDigits whole) fraction =
        { value := Decimal.natOfDigits (whole ++ fraction)
          leftOut := 0 } := by
  simp only [Decimal.natOfDigits_eq_ofDigitChars,
    Nat.ofDigitChars_append] at fits ⊢
  exact ⟨takeUp_eq (Nat.lt_of_le_of_lt (le_ofDigitChars _ _) fits),
    takeUp_eq fits⟩

/-- A significand of 53 bits times a power of two is held exactly. -/
theorem nearest_mul_two_pow
    {significand places : Nat}
    (short : significand < 2 ^ 53)
    (few : places ≤ 900) :
    Binary64.nearest false (significand * 2 ^ places) 1 =
      .finite false (significand * 2 ^ places * Binary64.unitsPerOne) := by
  have bounded :
      significand * 2 ^ places * Binary64.unitsPerOne <
        2 ^ (53 + places) * Binary64.unitsPerOne := by
    rw [Nat.pow_add]
    exact Nat.mul_lt_mul_of_pos_right
      (Nat.mul_lt_mul_of_pos_right short (Nat.two_pow_pos places))
      Binary64.unitsPerOne_pos
  have length := Binary64.bitLength_le_of_lt bounded
  refine
    Binary64.nearest_of_exact Nat.one_pos (Nat.mul_one _).symm
      ⟨?_, Binary64.lt_unitLimit_of_lt bounded (by omega)⟩
  rw [Nat.mul_assoc, ← Binary64.two_pow_add_eq_mul_unitsPerOne]
  refine Nat.dvd_mul_left_of_dvd (Nat.pow_dvd_pow 2 ?_) significand
  rw [Nat.mul_assoc, ← Binary64.two_pow_add_eq_mul_unitsPerOne] at length
  simp only [Binary64.scaleOf, Binary64.precision]
  omega

/-- Powers of ten up to `10 ^ 22` are held exactly. -/
theorem powerOfTen_eq
    {places : Nat}
    (few : places ≤ 22) :
    powerOfTen places =
      .finite false (10 ^ places * Binary64.unitsPerOne) := by
  have short : 5 ^ places < 2 ^ 53 :=
    Nat.lt_of_le_of_lt (Nat.pow_le_pow_right (by decide) few)
      (by decide)
  have halves : 5 ^ places * 2 ^ places = 10 ^ places :=
    (Nat.mul_pow 5 2 places).symm
  have held :=
    nearest_mul_two_pow short (show places ≤ 900 by omega)
  rw [halves] at held
  exact held

/-- The number nearest to a quotient up to `2 ^ 1023` is finite. -/
theorem nearest_eq_finite
    {numerator denominator exponent : Nat}
    (positive : 0 < denominator)
    (inRange : exponent < 1024)
    (atMost : numerator ≤ 2 ^ exponent * denominator)
    (negative : Bool) :
    Binary64.nearest negative numerator denominator =
      .finite negative (Binary64.nearestUnits numerator denominator) := by
  have scaled :
      numerator * Binary64.unitsPerOne ≤
        2 ^ (exponent + 1074) * denominator := by
    rw [Binary64.two_pow_add_eq_mul_unitsPerOne, Nat.mul_right_comm]
    exact Nat.mul_le_mul_right Binary64.unitsPerOne atMost
  have bounded := Binary64.nearestUnits_le_two_pow positive scaled
  apply Binary64.nearest_of_lt_unitLimit
  refine Binary64.lt_unitLimit_of_lt ?_ inRange
  rw [← Binary64.two_pow_add_eq_mul_unitsPerOne]
  exact Nat.lt_of_le_of_lt bounded
    (Nat.pow_lt_pow_right Nat.one_lt_two (by omega))

/-- The sign of a decimal number plays no part in its rounding. -/
theorem neg_toBinary64
    (significand : Nat)
    (exponent : Int) :
    (Decimal.mk false significand exponent).toBinary64.neg =
      (Decimal.mk true significand exponent).toBinary64 := by
  rw [Decimal.toBinary64_eq_nearest, Decimal.toBinary64_eq_nearest,
    Binary64.nearest_eq, Binary64.nearest_eq]
  exact apply_ite Binary64.neg _ _ _

section Exact

variable
    {significand : Nat}
    (short : significand < 2 ^ 53)

include short

/-- If the significand and the power of ten are held exactly, one rounding is left. -/
theorem scaled?_eq
    {exponent : Int}
    (near : -22 ≤ exponent ∧ exponent ≤ 22) :
    scaled? significand exponent =
      some (Decimal.mk false significand exponent).toBinary64 := by
  have held :
      Binary64.ofInt significand =
        .finite false (significand * Binary64.unitsPerOne) :=
    Binary64.ofInt_of_natAbs_lt
      (show (significand : Int).natAbs < 2 ^ 53 from short)
  have positive := Binary64.unitsPerOne_pos
  rw [Decimal.toBinary64_eq_nearest]
  cases exponent with
  | ofNat places =>
      have few : places ≤ 22 := Int.ofNat_le.mp near.2
      have numerator :
          (Decimal.mk false significand (.ofNat places)).numerator =
            significand * 10 ^ places := rfl
      have denominator :
          (Decimal.mk false significand (.ofNat places)).denominator =
            1 := by
        simp [Decimal.denominator]
      have bounded : significand * 10 ^ places ≤ 2 ^ 200 * 1 := by
        calc
          significand * 10 ^ places
              ≤ 2 ^ 53 * 10 ^ 22 :=
                Nat.mul_le_mul (Nat.le_of_lt short)
                  (Nat.pow_le_pow_right (by decide) few)
          _ ≤ 2 ^ 200 * 1 := by decide
      have product :
          (Binary64.ofInt significand).mul (powerOfTen places) =
            Binary64.nearest false (significand * 10 ^ places) 1 := by
        rw [held, powerOfTen_eq few]
        refine
          Binary64.nearest_eq_of_mul_eq (Nat.mul_pos positive positive)
            Nat.one_pos ?_ false
        rw [Nat.mul_one, Nat.mul_mul_mul_comm]
      rw [scaled?, if_pos (Nat.le_trans few (by decide)), product,
        numerator, denominator,
        nearest_eq_finite Nat.one_pos (by decide) bounded]
  | negSucc fewer =>
      have few : fewer + 1 ≤ 22 := by omega
      have below : fewer < greatestPower :=
        Nat.lt_of_lt_of_le few (by decide)
      have numerator :
          (Decimal.mk false significand (.negSucc fewer)).numerator =
            significand := Nat.mul_one significand
      have denominator :
          (Decimal.mk false significand (.negSucc fewer)).denominator =
            10 ^ (fewer + 1) := rfl
      have notZero : 10 ^ (fewer + 1) * Binary64.unitsPerOne ≠ 0 :=
        Nat.ne_of_gt (Nat.mul_pos (Nat.pow_pos (by decide)) positive)
      simp only [scaled?]
      rw [Nat.div_eq_of_lt below, Nat.mod_eq_of_lt below, divideOften,
        held, powerOfTen_eq few, Binary64.div, if_neg notZero,
        Binary64.nearest_mul_right positive, numerator, denominator]
      rfl

/-- Short digits with a short exponent are read as the number nearest to them. -/
theorem floating?_eq
    {placed written : Int}
    (shortExponent : written.natAbs < 2 ^ 31)
    (near : -22 ≤ placed + written ∧ placed + written ≤ 22)
    (negative : Bool) :
    floating? negative significand placed written =
      some
        (Decimal.mk negative significand
          (placed + written)).toBinary64 := by
  have kept : clampExponent (placed + written) = placed + written := by
    rw [clampExponent]
    omega
  rw [floating?, if_pos shortExponent, kept, scaled?_eq short near,
    Option.map_some]
  cases negative with
  | false => rfl
  | true => exact congrArg some (neg_toBinary64 _ _)

end Exact

/-- With a significand beyond `2 ^ 53` the result can lie beside the nearest number. -/
example :
    floating? false 9750494999999999 (-16) 0 ≠
      some (Decimal.mk false 9750494999999999 (-16)).toBinary64 := by
  decide +kernel

end FollowOn.Json

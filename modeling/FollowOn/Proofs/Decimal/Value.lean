import FollowOn.Decimal.Shortest
import FollowOn.Proofs.Binary64

namespace FollowOn

/-!
# Decimal numbers by value

`Decimal.toBinary64` rounds the exact value of a decimal number once: its two
short cuts only leave out powers of ten that would not change the result. So
decimals of one value have the same binary number, and the shortest form of a
number that 64 bits can hold is read back as it.
-/

namespace Decimal

/-- The value of a decimal number is its numerator by its denominator. -/
def numerator (number : Decimal) : Nat :=
  number.significand * 10 ^ number.exponent.toNat

/-- A power of ten if the exponent is negative, and one otherwise. -/
def denominator (number : Decimal) : Nat :=
  10 ^ (-number.exponent).toNat

/-- The quotient is never one by zero. -/
theorem denominator_pos
    (number : Decimal) :
    0 < number.denominator :=
  Nat.pow_pos (by decide)

/-- As `2 ^ 93` is less than `10 ^ 28`, powers of two are outweighed by powers of ten. -/
theorem two_pow_le_ten_pow
    (count : Nat)
    {places : Nat}
    (many : 28 * count + 1 ≤ places) :
    2 ^ (93 * count + 1) ≤ 10 ^ places := by
  refine Nat.le_trans ?_ (Nat.pow_le_pow_right (by decide) many)
  rw [Nat.pow_succ, Nat.pow_succ, Nat.pow_mul, Nat.pow_mul]
  exact Nat.mul_le_mul (Nat.pow_le_pow_left (by decide) count)
    (by decide)

/-- From `10 ^ 309` on every number is infinite. -/
theorem nearest_eq_infinite
    {significand places : Nat}
    (positive : significand ≠ 0)
    (many : 309 ≤ places)
    (negative : Bool) :
    Binary64.nearest negative (significand * 10 ^ places) 1 =
      .infinite negative := by
  obtain ⟨exponent, outOfRange, power⟩ :
      ∃ exponent, 1024 ≤ exponent ∧ 2 ^ exponent ≤ 10 ^ places :=
    ⟨_, Nat.le_refl (93 * 11 + 1), two_pow_le_ten_pow 11 many⟩
  have reaches : 2 ^ exponent * 1 ≤ significand * 10 ^ places := by
    rw [Nat.mul_one]
    exact Nat.le_trans power
      (Nat.le_mul_of_pos_left _ (Nat.pos_of_ne_zero positive))
  rw [Binary64.nearest_eq]
  apply if_neg
  exact Binary64.not_lt_unitLimit_of_le outOfRange
    (Binary64.two_pow_mul_le_nearestUnits Nat.one_pos reaches)

/-- Less than half a unit is zero. -/
theorem nearest_eq_zero
    {numerator denominator : Nat}
    (small :
      2 * (numerator * Binary64.unitsPerOne) < denominator)
    (negative : Bool) :
    Binary64.nearest negative numerator denominator =
      .finite negative 0 := by
  have quotient :
      numerator * Binary64.unitsPerOne / denominator = 0 :=
    Nat.div_eq_of_lt (by omega)
  have rounded :=
    Binary64.two_mul_nearestUnits_le
      (Nat.zero_lt_of_lt small) numerator
  rw [quotient, show Binary64.gridOf 0 = 1 from rfl,
    Nat.mul_one] at rounded
  have noUnits : Binary64.nearestUnits numerator denominator = 0 := by
    apply Nat.eq_zero_of_not_pos
    intro some
    have atLeast :
        denominator ≤
          Binary64.nearestUnits numerator denominator *
            denominator :=
      Nat.le_mul_of_pos_left denominator some
    omega
  rw [Binary64.nearest_of_lt_unitLimit negative
    (by rw [noUnits]; exact Binary64.unitLimit_pos), noUnits]

/-- Ten to more than a third of a binary length outweighs the length. -/
theorem two_mul_lt_ten_pow
    {significand places : Nat}
    (tiny : bitLength significand + 1075 ≤ 3 * places) :
    2 * (significand * Binary64.unitsPerOne) < 10 ^ places := by
  have bounded := lt_two_pow_bitLength significand
  have power :
      2 ^ (bitLength significand + 1 + 1074) ≤ 10 ^ places :=
    calc
      2 ^ (bitLength significand + 1 + 1074)
          ≤ 2 ^ (3 * places) :=
            Nat.pow_le_pow_right Nat.two_pos (by omega)
      _ = 8 ^ places := Nat.pow_mul 2 3 places
      _ ≤ 10 ^ places := Nat.pow_le_pow_left (by decide) places
  rw [Binary64.two_pow_add_eq_mul_unitsPerOne, Nat.pow_succ,
    Nat.mul_right_comm] at power
  have scaled :
      significand * Binary64.unitsPerOne <
        2 ^ bitLength significand * Binary64.unitsPerOne :=
    Nat.mul_lt_mul_of_pos_right bounded Binary64.unitsPerOne_pos
  omega

/-- The binary number of a decimal is the one nearest to its value. -/
theorem toBinary64_eq_nearest
    (number : Decimal) :
    number.toBinary64 =
      Binary64.nearest number.negative
        number.numerator number.denominator := by
  unfold toBinary64
  split
  · rename_i zero
    rw [numerator, zero, Nat.zero_mul, Binary64.nearest_zero]
  · rename_i positive
    split
    · rename_i places isPlaces
      have wide :
          number.numerator = number.significand * 10 ^ places ∧
            number.denominator = 1 := by
        rw [numerator, denominator, isPlaces]
        exact ⟨rfl, by simp⟩
      rw [wide.1, wide.2]
      split
      · rename_i many
        exact (nearest_eq_infinite positive many _).symm
      · rfl
    · rename_i fewer isFewer
      have narrow :
          number.numerator = number.significand ∧
            number.denominator = 10 ^ (fewer + 1) := by
        rw [numerator, denominator, isFewer]
        exact ⟨by simp, rfl⟩
      rw [narrow.1, narrow.2]
      simp only
      split
      · rename_i tiny
        exact (nearest_eq_zero (two_mul_lt_ten_pow tiny) _).symm
      · rfl

/-- Zeros at the end of the significand count as places of the exponent. -/
theorem toBinary64_mul_ten_pow
    (negative : Bool)
    (significand zeros : Nat)
    (exponent : Int) :
    (Decimal.mk negative (significand * 10 ^ zeros)
        exponent).toBinary64 =
      (Decimal.mk negative significand
        (exponent + zeros)).toBinary64 := by
  have places :
      zeros + exponent.toNat + (-(exponent + zeros)).toNat =
        (exponent + zeros).toNat + (-exponent).toNat := by
    omega
  rw [toBinary64_eq_nearest, toBinary64_eq_nearest]
  apply Binary64.nearest_eq_of_mul_eq (denominator_pos _)
    (denominator_pos _)
  simp only [numerator, denominator, Nat.mul_assoc, ← Nat.pow_add]
  rw [places]

/-- Places after the point can be traded for halves. -/
theorem toBinary64_mul_five_pow
    (negative : Bool)
    (units places : Nat) :
    (Decimal.mk negative (units * 5 ^ places)
        (-places)).toBinary64 =
      Binary64.nearest negative units (2 ^ places) := by
  rw [toBinary64_eq_nearest]
  apply Binary64.nearest_eq_of_mul_eq (denominator_pos _)
    (Nat.two_pow_pos places)
  have power : 5 ^ places * 2 ^ places = 10 ^ places :=
    (Nat.mul_pow 5 2 places).symm
  simp [numerator, denominator, Nat.mul_assoc, power]

/-- The exact expansion of a number that can be held is read as it. -/
theorem toBinary64_exact
    {negative : Bool}
    {units : Nat}
    (representable : (Binary64.finite negative units).Representable) :
    (exact negative units).toBinary64 = .finite negative units := by
  have halves := toBinary64_mul_five_pow negative units 1074
  rw [exact]
  refine halves.trans
    (Binary64.nearest_of_exact (Nat.two_pow_pos 1074) ?_ representable)
  unfold Binary64.unitsPerOne
  rfl

/-- The shortest form of a number that can be held is read back as it. -/
theorem toBinary64_shortest
    {negative : Bool}
    {units : Nat}
    (representable : (Binary64.finite negative units).Representable)
    (tie : Tie) :
    (shortest tie negative units).toBinary64 =
      .finite negative units := by
  unfold shortest
  split
  · rename_i zero
    rw [zero]
    rfl
  · cases found :
        (List.range' 1 17).findSome?
          (withDigits? tie negative units) with
    | none =>
        exact toBinary64_exact representable
    | some decimal =>
        obtain ⟨_, _, isForm⟩ := List.exists_of_findSome?_eq_some found
        exact readsBackAs_of_withDigits? isForm

end Decimal

end FollowOn

import FollowOn.Proofs.Decimal.Shortest
import FollowOn.Proofs.Ratio

namespace FollowOn

/-!
# Ratios read back from floating-point numbers

A ratio is divided by a million on its way out and multiplied by a million on
its way in, each time with a rounding, and is then rounded to whole millionths.
Up to `2 ^ 32` the first rounding moves it by less than a quarter of a
millionth, and the second one by a quarter at most, since the millionths lie
below `2 ^ 52` where numbers are multiples of a half. So the last rounding
gives the ratio back. Above, the errors may add up to more than a half.

The number is written with its shortest form, which is no longer than the
millionths themselves. So its text is read without a further rounding.
-/

namespace Ratio

open Binary64

/-- A ratio of magnitude `2 ^ 32` at most. -/
def IsModerate (ratio : Ratio) : Prop :=
  ratio.micros.natAbs ≤ 2 ^ 32 * 1000000

instance (ratio : Ratio) : Decidable ratio.IsModerate :=
  inferInstanceAs (Decidable (_ ≤ _))

/-- A moderate ratio is told apart from all others by its number. -/
theorem IsModerate.isResolved
    {ratio : Ratio}
    (moderate : ratio.IsModerate) :
    ratio.IsResolved :=
  Nat.lt_of_le_of_lt moderate (by decide)

/-- The units of the number of some millionths, taken a million times. -/
def productUnits (millionths : Nat) : Nat :=
  nearestUnits millionths 1000000 * 1000000

section Errors

variable
    {millionths : Nat}
    (moderate : millionths ≤ 2 ^ 32 * 1000000)

include moderate

/-- Up to `2 ^ 32` the first rounding moves a ratio by less than a quarter of a millionth. -/
theorem productUnits_bounds :
    4 * productUnits millionths <
        4 * (millionths * unitsPerOne) + unitsPerOne ∧
      4 * (millionths * unitsPerOne) <
        4 * productUnits millionths + unitsPerOne := by
  have positive := unitsPerOne_pos
  rcases Nat.lt_or_eq_of_le moderate with below | greatest
  · have bounded :
        millionths * unitsPerOne / 1000000 < 2 ^ 32 * unitsPerOne := by
      rw [Nat.div_lt_iff_lt_mul (by decide), Nat.mul_right_comm]
      exact Nat.mul_lt_mul_of_pos_right below positive
    have finer := gridOf_mul_le bounded (Nat.le_refl (32 + 21))
    have step := gridOf_pos (millionths * unitsPerOne / 1000000)
    have atMost :=
      two_mul_nearestUnits_le
        (show 0 < 1000000 by decide) millionths
    have atLeast :=
      two_mul_le_nearestUnits
        (show 0 < 1000000 by decide) millionths
    simp only [productUnits]
    omega
  · -- The greatest of these ratios is a power of two, which is held exactly.
    have bounded : 2 ^ 32 * unitsPerOne < 2 ^ 33 * unitsPerOne :=
      Nat.mul_lt_mul_of_pos_right (by decide) positive
    have onGrid :=
      gridOf_dvd_unitsPerOne bounded (show 33 ≤ 53 by decide)
    have exact :
        nearestUnits millionths 1000000 = 2 ^ 32 * unitsPerOne := by
      refine nearestUnits_eq (by decide) ?_
        (Nat.dvd_trans onGrid (Nat.dvd_mul_left _ _))
      rw [greatest, Nat.mul_right_comm]
    have product :
        productUnits millionths = millionths * unitsPerOne := by
      rw [productUnits, exact, greatest, Nat.mul_right_comm]
    omega

/-- The product with a million stays where numbers are multiples of a half. -/
theorem productUnits_lt :
    productUnits millionths < 2 ^ 52 * unitsPerOne := by
  have error := (productUnits_bounds moderate).1
  have within :
      millionths * unitsPerOne ≤ 2 ^ 32 * 1000000 * unitsPerOne :=
    Nat.mul_le_mul_right unitsPerOne moderate
  omega

/-- The second rounding adds a quarter of a millionth at most. -/
theorem nearestUnits_productUnits_bounds :
    2 * nearestUnits (productUnits millionths) unitsPerOne <
        2 * (millionths * unitsPerOne) + unitsPerOne ∧
      2 * (millionths * unitsPerOne) <
        2 * nearestUnits (productUnits millionths) unitsPerOne +
          unitsPerOne := by
  have positive := unitsPerOne_pos
  have quotient :
      productUnits millionths * unitsPerOne / unitsPerOne =
        productUnits millionths :=
    Nat.mul_div_cancel _ positive
  have halves :=
    gridOf_mul_le (productUnits_lt moderate) (Nat.le_refl (52 + 1))
  have atMost :=
    two_mul_nearestUnits_le positive (productUnits millionths)
  have atLeast :=
    two_mul_le_nearestUnits positive (productUnits millionths)
  rw [quotient, Nat.mul_comm unitsPerOne, ← Nat.mul_assoc,
    ← Nat.mul_assoc, ← Nat.add_mul] at atMost atLeast
  have secondAtMost := Nat.le_of_mul_le_mul_right atMost positive
  have secondAtLeast := Nat.le_of_mul_le_mul_right atLeast positive
  have first := productUnits_bounds moderate
  omega

/-- The last rounding gives the millionths back. -/
theorem roundDiv_nearestUnits_productUnits :
    roundDiv .up
        (nearestUnits (productUnits millionths) unitsPerOne)
        unitsPerOne =
      millionths :=
  roundDiv_eq .up (nearestUnits_productUnits_bounds moderate).1
    (nearestUnits_productUnits_bounds moderate).2

/-- Of two millionths or more the shortest form has no more places than they. -/
theorem isShort_shortest_of_two_le
    (several : 2 ≤ millionths)
    (negative : Bool) :
    (Decimal.shortest .even negative
      (nearestUnits millionths 1000000)).IsShort := by
  have positive := unitsPerOne_pos
  have error := productUnits_bounds moderate
  have small :=
    nearestUnits_lt_of_resolved
      (Nat.lt_of_le_of_lt moderate (by decide))
  have severalUnits :
      2 * unitsPerOne ≤ millionths * unitsPerOne :=
    Nat.mul_le_mul_right unitsPerOne several
  have nearest :
      roundDiv .even (nearestUnits millionths 1000000 * 10 ^ 6)
          unitsPerOne =
        millionths := by
    apply roundDiv_eq <;> simp only [productUnits] at error <;> omega
  have readsBack :
      (Decimal.mk negative millionths (-6)).toBinary64 =
        .finite negative (nearestUnits millionths 1000000) := by
    rw [Decimal.toBinary64_eq_nearest]
    have numerator :
        (Decimal.mk negative millionths (-6)).numerator =
          millionths := Nat.mul_one millionths
    rw [numerator]
    exact nearest_of_lt_unitLimit negative
      (lt_unitLimit_of_lt small (by decide))
  refine Decimal.isShort_shortest ?_ small ?_
  · simp only [productUnits] at error
    omega
  · rw [nearest]
    exact readsBack

/-- The shortest form of the number of a ratio is no longer than the ratio. -/
theorem isShort_shortest
    (negative : Bool) :
    (Decimal.shortest .even negative
      (nearestUnits millionths 1000000)).IsShort := by
  rcases Nat.lt_or_ge millionths 2 with few | several
  · -- The number of a single millionth lies below it, off its grid.
    have isForm :
        Decimal.shortest .even negative (nearestUnits 0 1000000) =
            ⟨negative, 0, 0⟩ ∧
          Decimal.shortest .even negative (nearestUnits 1 1000000) =
            ⟨negative, 10, -7⟩ := by
      cases negative <;> decide +kernel
    rcases Nat.le_one_iff_eq_zero_or_eq_one.mp
        (Nat.le_of_lt_succ few) with none | single
    · rw [none, isForm.1]
      constructor <;> cases negative <;> decide
    · rw [single, isForm.2]
      constructor <;> cases negative <;> decide
  · exact isShort_shortest_of_two_le moderate several negative

end Errors

/-- A finite number is read as the millionths to which its product is rounded. -/
theorem ofBinary64?_of_round?_eq_some
    {value : Binary64}
    {negative : Bool}
    {units : Nat}
    {micros : Int}
    (isFinite : value = .finite negative units)
    (rounded : (value.mul (.ofInt scale)).round? = some micros)
    (inRange : micros.natAbs < 2 ^ 63) :
    ofBinary64? value = .ok ⟨micros⟩ := by
  unfold ofBinary64?
  -- The product goes before the number is opened, so that it is not evaluated.
  rw [rounded]
  clear rounded
  subst isFinite
  exact if_pos inRange

/-- A ratio up to `2 ^ 32` is read back from its floating-point number. -/
theorem IsModerate.ofBinary64?_toBinary64
    {ratio : Ratio}
    (moderate : ratio.IsModerate) :
    ofBinary64? ratio.toBinary64 = .ok ratio := by
  have bounds := nearestUnits_productUnits_bounds moderate
  have within :
      ratio.micros.natAbs * unitsPerOne ≤
        2 ^ 32 * 1000000 * unitsPerOne :=
    Nat.mul_le_mul_right unitsPerOne moderate
  have bounded :
      nearestUnits (productUnits ratio.micros.natAbs) unitsPerOne <
        2 ^ 53 * unitsPerOne := by
    omega
  have inRange := lt_unitLimit_of_lt bounded (by decide)
  have product :
      ratio.toBinary64.mul (.ofInt scale) =
        .finite (decide (ratio.micros < 0))
          (nearestUnits (productUnits ratio.micros.natAbs)
            unitsPerOne) := by
    rw [moderate.isResolved.toBinary64_eq, ofInt_scale, mul,
      Bool.bne_false, ← Nat.mul_assoc,
      nearest_mul_right unitsPerOne_pos]
    exact nearest_of_lt_unitLimit _ inRange
  have rounded :
      (ratio.toBinary64.mul (.ofInt scale)).round? =
        some ratio.micros := by
    rw [product, round?, roundDiv_nearestUnits_productUnits moderate,
      signed]
    congr 1
    split <;> rename_i sign <;> simp at sign <;> omega
  exact
    ofBinary64?_of_round?_eq_some moderate.isResolved.toBinary64_eq
      rounded (Nat.lt_of_le_of_lt moderate (by decide))

end Ratio

end FollowOn

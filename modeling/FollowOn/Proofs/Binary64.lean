import FollowOn.Binary64
import FollowOn.Proofs.Rounding

namespace FollowOn

/-!
# Rounding to a floating-point number

What `Binary64.nearest` does to the unit count of a quotient. The count of the
result is on the grid of its own size, differs from the exact count by half a
grid step at most, and stays between the powers of two around it. A count that
already lies on its grid is kept, and equal quotients round alike. So whole
numbers below `2 ^ 53` are held exactly.
-/

/-- A power of two is the first number of its length. -/
theorem bitLength_two_pow
    (exponent : Nat) :
    bitLength (2 ^ exponent) = exponent + 1 := by
  apply Nat.le_antisymm
  · exact bitLength_le_iff.mpr
      (Nat.pow_lt_pow_right Nat.one_lt_two (Nat.lt_succ_self exponent))
  · apply Nat.le_of_not_lt
    intro short
    exact Nat.lt_irrefl _
      (bitLength_le_iff.mp (Nat.le_of_lt_succ short))

namespace Binary64

/-- The grid on which unit counts of a given size lie. -/
def gridOf (units : Nat) : Nat :=
  2 ^ scaleOf units

/-- No grid is empty of steps. -/
theorem gridOf_pos
    (units : Nat) :
    0 < gridOf units :=
  Nat.two_pow_pos _

/-- The units of the number nearest to a quotient, before they are checked for overflow. -/
def nearestUnits (numerator denominator : Nat) : Nat :=
  let scaled := numerator * unitsPerOne
  let grid := gridOf (scaled / denominator)
  roundDiv .even scaled (denominator * grid) * grid

/-- Only a count of units that reaches the limit becomes infinite. -/
theorem nearest_eq
    (negative : Bool)
    (numerator denominator : Nat) :
    nearest negative numerator denominator =
      if nearestUnits numerator denominator < unitLimit then
        .finite negative (nearestUnits numerator denominator)
      else
        .infinite negative := rfl

/-- Below the limit the nearest number is the rounded count of units. -/
theorem nearest_of_lt_unitLimit
    {numerator denominator : Nat}
    (negative : Bool)
    (inRange : nearestUnits numerator denominator < unitLimit) :
    nearest negative numerator denominator =
      .finite negative (nearestUnits numerator denominator) := by
  rw [nearest_eq, if_pos inRange]

section Nearest

variable
    {numerator denominator factor units exponent : Nat}

/-- A common factor plays no part in the rounding of units. -/
theorem nearestUnits_mul_right
    (positive : 0 < factor) :
    nearestUnits (numerator * factor) (denominator * factor) =
      nearestUnits numerator denominator := by
  simp only [nearestUnits, Nat.mul_right_comm _ factor,
    Nat.mul_div_mul_right _ _ positive,
    roundDiv_mul_right .even positive]

/-- A common factor plays no part in the rounding. -/
theorem nearest_mul_right
    (positive : 0 < factor)
    (negative : Bool) :
    nearest negative (numerator * factor) (denominator * factor) =
      nearest negative numerator denominator := by
  simp only [nearest_eq, nearestUnits_mul_right positive]

/-- Equal quotients round alike. -/
theorem nearest_eq_of_mul_eq
    {otherNumerator otherDenominator : Nat}
    (positive : 0 < denominator)
    (otherPositive : 0 < otherDenominator)
    (same :
      numerator * otherDenominator = otherNumerator * denominator)
    (negative : Bool) :
    nearest negative numerator denominator =
      nearest negative otherNumerator otherDenominator := by
  rw [← nearest_mul_right otherPositive, same,
    Nat.mul_comm denominator, nearest_mul_right positive]

/-- A result exceeds the exact quotient by half a grid step at most. -/
theorem two_mul_nearestUnits_le
    (positive : 0 < denominator)
    (numerator : Nat) :
    2 * (nearestUnits numerator denominator * denominator) ≤
      2 * (numerator * unitsPerOne) +
        denominator *
          gridOf (numerator * unitsPerOne / denominator) := by
  have rounded :=
    two_mul_roundDiv_le .even
      (Nat.mul_pos positive
        (gridOf_pos (numerator * unitsPerOne / denominator)))
      (numerator * unitsPerOne)
  simpa only [nearestUnits, Nat.mul_assoc,
    Nat.mul_comm denominator] using rounded

/-- A result falls short of the exact quotient by half a grid step at most. -/
theorem two_mul_le_nearestUnits
    (positive : 0 < denominator)
    (numerator : Nat) :
    2 * (numerator * unitsPerOne) ≤
      2 * (nearestUnits numerator denominator * denominator) +
        denominator *
          gridOf (numerator * unitsPerOne / denominator) := by
  have rounded :=
    two_mul_le_roundDiv .even
      (Nat.mul_pos positive
        (gridOf_pos (numerator * unitsPerOne / denominator)))
      (numerator * unitsPerOne)
  simpa only [nearestUnits, Nat.mul_assoc,
    Nat.mul_comm denominator] using rounded

section OnGrid

variable
    (positive : 0 < denominator)
    (onGrid :
      gridOf (numerator * unitsPerOne / denominator) ∣ units)

include positive onGrid

/-- A grid point that the quotient reaches is not rounded past. -/
theorem le_nearestUnits
    (atMost : units * denominator ≤ numerator * unitsPerOne) :
    units ≤ nearestUnits numerator denominator := by
  obtain ⟨steps, isSteps⟩ := onGrid
  rw [isSteps, Nat.mul_comm (gridOf _) steps] at atMost ⊢
  refine Nat.mul_le_mul_right _ (le_roundDiv .even ?_ ?_)
  · exact Nat.mul_pos positive (gridOf_pos _)
  · rw [Nat.mul_comm denominator, ← Nat.mul_assoc]
    exact atMost

/-- A grid point that bounds the quotient bounds its rounding. -/
theorem nearestUnits_le
    (atLeast : numerator * unitsPerOne ≤ units * denominator) :
    nearestUnits numerator denominator ≤ units := by
  obtain ⟨steps, isSteps⟩ := onGrid
  rw [isSteps, Nat.mul_comm (gridOf _) steps] at atLeast ⊢
  refine Nat.mul_le_mul_right _ (roundDiv_le .even ?_ ?_)
  · exact Nat.mul_pos positive (gridOf_pos _)
  · rw [Nat.mul_comm denominator, ← Nat.mul_assoc]
    exact atLeast

end OnGrid

/-- A count of units on its own grid is not changed. -/
theorem nearestUnits_eq
    (positive : 0 < denominator)
    (exact : numerator * unitsPerOne = units * denominator)
    (onGrid : gridOf units ∣ units) :
    nearestUnits numerator denominator = units := by
  have quotient : numerator * unitsPerOne / denominator = units := by
    rw [exact]
    exact Nat.mul_div_cancel units positive
  apply Nat.le_antisymm
  · exact nearestUnits_le positive (by rwa [quotient])
      (Nat.le_of_eq exact)
  · exact le_nearestUnits positive (by rwa [quotient])
      (Nat.le_of_eq exact.symm)

/-- A result is at least the leading power of two of the quotient. -/
theorem two_pow_le_nearestUnits
    (positive : 0 < denominator)
    (atLeast :
      2 ^ exponent * denominator ≤ numerator * unitsPerOne) :
    2 ^ exponent ≤ nearestUnits numerator denominator := by
  have reaches :
      2 ^ exponent ≤ numerator * unitsPerOne / denominator :=
    (Nat.le_div_iff_mul_le positive).mpr atLeast
  have length := bitLength_mono reaches
  rw [bitLength_two_pow] at length
  have notZero : numerator * unitsPerOne / denominator ≠ 0 :=
    Nat.ne_of_gt (Nat.lt_of_lt_of_le (Nat.two_pow_pos _) reaches)
  have leading := two_pow_le_of_bitLength notZero
  -- The leading power itself lies on the grid of the quotient.
  refine Nat.le_trans
    (Nat.pow_le_pow_right Nat.two_pos (Nat.le_sub_one_of_lt length))
    (le_nearestUnits positive ?_ ?_)
  · apply Nat.pow_dvd_pow
    simp only [scaleOf, precision]
    omega
  · exact (Nat.le_div_iff_mul_le positive).mp leading

/-- A result is at most the power of two above the quotient. -/
theorem nearestUnits_le_two_pow
    (positive : 0 < denominator)
    (atMost :
      numerator * unitsPerOne ≤ 2 ^ exponent * denominator) :
    nearestUnits numerator denominator ≤ 2 ^ exponent := by
  refine nearestUnits_le positive ?_ atMost
  have bounded :
      numerator * unitsPerOne / denominator ≤ 2 ^ exponent :=
    Nat.div_le_of_le_mul (by rwa [Nat.mul_comm denominator])
  have length := bitLength_mono bounded
  rw [bitLength_two_pow] at length
  apply Nat.pow_dvd_pow
  simp only [scaleOf, precision]
  omega

/-- A result lies on the grid of its own size. -/
theorem gridOf_nearestUnits_dvd
    (positive : 0 < denominator)
    (numerator : Nat) :
    gridOf (nearestUnits numerator denominator) ∣
      nearestUnits numerator denominator := by
  have below :
      numerator * unitsPerOne ≤
        2 ^ bitLength (numerator * unitsPerOne / denominator) *
          denominator := by
    apply Nat.le_of_lt
    rw [← Nat.div_lt_iff_lt_mul positive]
    exact lt_two_pow_bitLength _
  have bounded := nearestUnits_le_two_pow positive below
  rcases Nat.lt_or_eq_of_le bounded with smaller | same
  · have length := bitLength_le_iff.mpr smaller
    refine Nat.dvd_trans
      (Nat.pow_dvd_pow 2 (Nat.sub_le_sub_right length precision)) ?_
    exact Nat.dvd_mul_left _ _
  · rw [same]
    apply Nat.pow_dvd_pow
    rw [scaleOf, bitLength_two_pow]
    simp only [precision]
    omega

end Nearest

/-- A number that 64 bits can hold: its units lie on their grid and below the limit. -/
def Representable : Binary64 → Prop
  | .finite _ units => gridOf units ∣ units ∧ units < unitLimit
  | _ => True

/-- A rounded number can be held. -/
theorem representable_nearest
    {denominator : Nat}
    (positive : 0 < denominator)
    (negative : Bool)
    (numerator : Nat) :
    (nearest negative numerator denominator).Representable := by
  rw [nearest_eq]
  split
  · rename_i inRange
    exact ⟨gridOf_nearestUnits_dvd positive numerator, inRange⟩
  · exact trivial

/-- A quotient that can be held is held exactly. -/
theorem nearest_of_exact
    {numerator denominator units : Nat}
    {negative : Bool}
    (positive : 0 < denominator)
    (exact : numerator * unitsPerOne = units * denominator)
    (representable : (Binary64.finite negative units).Representable) :
    nearest negative numerator denominator =
      .finite negative units := by
  obtain ⟨onGrid, inRange⟩ := representable
  have kept := nearestUnits_eq positive exact onGrid
  rw [nearest_of_lt_unitLimit negative (by rwa [kept]), kept]

/-- The units of a power of two. -/
theorem two_pow_add_eq_mul_unitsPerOne
    (exponent : Nat) :
    2 ^ (exponent + 1074) = 2 ^ exponent * unitsPerOne := by
  unfold unitsPerOne
  exact Nat.pow_add 2 exponent 1074

/-- A quotient that reaches a power of two is not rounded below it. -/
theorem two_pow_mul_le_nearestUnits
    {numerator denominator exponent : Nat}
    (positive : 0 < denominator)
    (reaches : 2 ^ exponent * denominator ≤ numerator) :
    2 ^ exponent * unitsPerOne ≤
      nearestUnits numerator denominator := by
  rw [← two_pow_add_eq_mul_unitsPerOne]
  apply two_pow_le_nearestUnits positive
  rw [two_pow_add_eq_mul_unitsPerOne, Nat.mul_right_comm]
  exact Nat.mul_le_mul_right unitsPerOne reaches

/-- What reaches `2 ^ 1024` cannot be held. -/
theorem not_lt_unitLimit_of_le
    {units exponent : Nat}
    (outOfRange : 1024 ≤ exponent)
    (reaches : 2 ^ exponent * unitsPerOne ≤ units) :
    ¬units < unitLimit := by
  rw [← two_pow_add_eq_mul_unitsPerOne] at reaches
  have length := bitLength_mono reaches
  rw [bitLength_two_pow] at length
  intro inRange
  unfold unitLimit at inRange
  have short := bitLength_le_iff.mpr inRange
  omega

section Bounded

variable
    {units exponent fewer : Nat}
    (bounded : units < 2 ^ exponent * unitsPerOne)

include bounded

/-- The length of the units of a number below a power of two. -/
theorem bitLength_le_of_lt :
    bitLength units ≤ exponent + 1074 := by
  rw [bitLength_le_iff, two_pow_add_eq_mul_unitsPerOne]
  exact bounded

/-- Numbers up to `2 ^ 1024` have fewer units than the limit. -/
theorem lt_unitLimit_of_lt
    (inRange : exponent ≤ 1024) :
    units < unitLimit := by
  have length : bitLength units ≤ 2098 :=
    Nat.le_trans (bitLength_le_of_lt bounded)
      (Nat.add_le_add_right inRange 1074)
  have below := bitLength_le_iff.mp length
  unfold unitLimit
  exact below

/-- The grid of numbers below a power of two is finer than one by the other places. -/
theorem gridOf_mul_le
    (places : exponent + fewer ≤ 53) :
    gridOf units * 2 ^ fewer ≤ unitsPerOne := by
  have length := bitLength_le_of_lt bounded
  have scale : scaleOf units + fewer ≤ 1074 := by
    rw [scaleOf, precision]
    omega
  have finer := Nat.pow_le_pow_right Nat.two_pos scale
  rw [gridOf, ← Nat.pow_add]
  unfold unitsPerOne
  exact finer

/-- Whole numbers below `2 ^ 53` lie on their grid. -/
theorem gridOf_dvd_unitsPerOne
    (places : exponent ≤ 53) :
    gridOf units ∣ unitsPerOne := by
  have length := bitLength_le_of_lt bounded
  have scale : scaleOf units ≤ 1074 := by
    rw [scaleOf, precision]
    omega
  have divides := Nat.pow_dvd_pow 2 scale
  rw [gridOf]
  unfold unitsPerOne
  exact divides

end Bounded

/-- Whole numbers below `2 ^ 53` are held exactly. -/
theorem ofInt_of_natAbs_lt
    {value : Int}
    (small : value.natAbs < 2 ^ 53) :
    ofInt value =
      .finite (decide (value < 0)) (value.natAbs * unitsPerOne) := by
  have bounded :
      value.natAbs * unitsPerOne < 2 ^ 53 * unitsPerOne :=
    Nat.mul_lt_mul_of_pos_right small unitsPerOne_pos
  have onGrid :=
    gridOf_dvd_unitsPerOne bounded (Nat.le_refl 53)
  exact nearest_of_exact Nat.one_pos (Nat.mul_one _).symm
    ⟨Nat.dvd_trans onGrid (Nat.dvd_mul_left unitsPerOne _),
      lt_unitLimit_of_lt bounded (by decide)⟩

/-- Any other whole number is infinite or at least `2 ^ 53`. -/
theorem ofInt_of_le_natAbs
    {value : Int}
    (large : 2 ^ 53 ≤ value.natAbs) :
    (∃ negative, ofInt value = .infinite negative) ∨
      ∃ negative units,
        ofInt value = .finite negative units ∧
          2 ^ 53 * unitsPerOne ≤ units := by
  rw [ofInt, nearest_eq]
  split
  · refine Or.inr ⟨_, _, rfl, ?_⟩
    exact two_pow_mul_le_nearestUnits Nat.one_pos
      (by rwa [Nat.mul_one])
  · exact Or.inl ⟨_, rfl⟩

end Binary64

end FollowOn

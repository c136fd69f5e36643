import FollowOn.Rounding

namespace FollowOn

/-!
# How far rounding moves a quotient

A rounded quotient is at most half a unit away from the exact one. Rounding
keeps whole numbers and the order between a quotient and a whole number, and
it does not see a factor that numerator and denominator share. So a quotient
that is closer than half a unit to a whole number is rounded to that number.
-/

section RoundDiv

variable
    (tie : Tie)
    {numerator denominator whole : Nat}

/-- A common factor of numerator and denominator plays no part. -/
theorem roundDiv_mul_right
    {factor : Nat}
    (positive : 0 < factor) :
    roundDiv tie (numerator * factor) (denominator * factor) =
      roundDiv tie numerator denominator := by
  have twice :
      2 * (numerator % denominator * factor) =
        2 * (numerator % denominator) * factor := by
    rw [Nat.mul_assoc]
  simp only [roundDiv, Nat.mul_div_mul_right _ _ positive,
    Nat.mul_mod_mul_right, twice, Nat.mul_lt_mul_right positive]

/-- A whole number is not moved by rounding. -/
theorem roundDiv_mul_self
    (positive : 0 < denominator) :
    roundDiv tie (whole * denominator) denominator = whole := by
  simp only [roundDiv, Nat.mul_mod_left, Nat.mul_zero, if_pos positive]
  exact Nat.mul_div_cancel whole positive

/-- A rounded quotient exceeds the exact one by half a unit at most. -/
theorem two_mul_roundDiv_le
    (positive : 0 < denominator)
    (numerator : Nat) :
    2 * (roundDiv tie numerator denominator * denominator) ≤
      2 * numerator + denominator := by
  have split := Nat.div_add_mod' numerator denominator
  have rest := Nat.mod_lt numerator positive
  simp only [roundDiv]
  split
  · omega
  · split
    · rw [Nat.add_mul]
      omega
    · cases tie with
      | even =>
          rcases Nat.mod_two_eq_zero_or_one
              (numerator / denominator) with even | odd
          · simp only [even, Nat.add_zero]
            omega
          · simp only [odd, Nat.add_mul]
            omega
      | up =>
          simp only [Nat.add_mul]
          omega

/-- A rounded quotient falls short of the exact one by half a unit at most. -/
theorem two_mul_le_roundDiv
    (positive : 0 < denominator)
    (numerator : Nat) :
    2 * numerator ≤
      2 * (roundDiv tie numerator denominator * denominator) +
        denominator := by
  have split := Nat.div_add_mod' numerator denominator
  have rest := Nat.mod_lt numerator positive
  simp only [roundDiv]
  split
  · omega
  · split
    · rw [Nat.add_mul]
      omega
    · cases tie with
      | even =>
          simp only [Nat.add_mul]
          omega
      | up =>
          simp only [Nat.add_mul]
          omega

/-- A whole number that the quotient reaches is not rounded past. -/
theorem le_roundDiv
    (positive : 0 < denominator)
    (atMost : whole * denominator ≤ numerator) :
    whole ≤ roundDiv tie numerator denominator :=
  Nat.le_trans ((Nat.le_div_iff_mul_le positive).mpr atMost)
    (div_le_roundDiv tie numerator denominator)

/-- A whole number that bounds the quotient bounds its rounding. -/
theorem roundDiv_le
    (positive : 0 < denominator)
    (atLeast : numerator ≤ whole * denominator) :
    roundDiv tie numerator denominator ≤ whole := by
  rcases Nat.lt_or_eq_of_le atLeast with below | exact
  · have quotient : numerator / denominator < whole :=
      (Nat.div_lt_iff_lt_mul positive).mpr below
    exact Nat.le_trans
      (roundDiv_le_div_add_one tie numerator denominator) quotient
  · apply Nat.le_of_eq
    rw [exact, roundDiv_mul_self tie positive]

/-- A quotient less than half a unit away from a whole number is rounded to it. -/
theorem roundDiv_eq
    (below : 2 * numerator < 2 * (whole * denominator) + denominator)
    (above : 2 * (whole * denominator) < 2 * numerator + denominator) :
    roundDiv tie numerator denominator = whole := by
  have positive : 0 < denominator := by omega
  have atMost := two_mul_roundDiv_le tie positive numerator
  have atLeast := two_mul_le_roundDiv tie positive numerator
  have notMore :
      roundDiv tie numerator denominator * denominator <
        (whole + 1) * denominator := by
    rw [Nat.add_mul]
    omega
  have notLess :
      whole * denominator <
        (roundDiv tie numerator denominator + 1) * denominator := by
    rw [Nat.add_mul]
    omega
  exact Nat.le_antisymm
    (Nat.le_of_lt_succ (Nat.lt_of_mul_lt_mul_right notMore))
    (Nat.le_of_lt_succ (Nat.lt_of_mul_lt_mul_right notLess))

end RoundDiv

end FollowOn

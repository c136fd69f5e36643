namespace FollowOn

/-!
# Rounding a quotient to a whole number

`roundDiv` gives the whole number nearest to a quotient of natural numbers.
The only freedom is which neighbour an exact half goes to, and a `Tie` names
that choice.
-/

/-- Where a quotient goes that lies half way between two whole numbers. -/
inductive Tie where
  /-- To the even neighbour. -/
  | even
  /-- To the greater neighbour. -/
  | up
deriving Repr, DecidableEq

/-- The whole number nearest to `numerator / denominator`. -/
def roundDiv
    (tie : Tie)
    (numerator denominator : Nat) :
    Nat :=
  let quotient := numerator / denominator
  let twiceRest := 2 * (numerator % denominator)
  if twiceRest < denominator then
    quotient
  else if denominator < twiceRest then
    quotient + 1
  else
    match tie with
    | .even => quotient + quotient % 2
    | .up => quotient + 1

/-- A quotient is not rounded below its floor. -/
theorem div_le_roundDiv
    (tie : Tie)
    (numerator denominator : Nat) :
    numerator / denominator ≤
      roundDiv tie numerator denominator := by
  simp only [roundDiv]
  split
  · exact Nat.le_refl _
  · split
    · omega
    · cases tie <;> simp only <;> omega

/-- A quotient is not rounded beyond the whole number after its floor. -/
theorem roundDiv_le_div_add_one
    (tie : Tie)
    (numerator denominator : Nat) :
    roundDiv tie numerator denominator ≤
      numerator / denominator + 1 := by
  simp only [roundDiv]
  split
  · omega
  · split
    · omega
    · cases tie <;> simp only <;> omega

end FollowOn

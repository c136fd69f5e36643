import FollowOn.Proofs.Checked.Proportion
import Mathlib.Algebra.BigOperators.Ring.List
import Mathlib.Algebra.Order.BigOperators.Group.List
import Mathlib.Algebra.Ring.Nat

namespace FollowOn

/-!
# Proportional shares fit into the pool

A share is rounded down, except that one of a long weight is computed with the
highest places of the weight and of the total only, and may then come out too
large. What the lowest places can hold is small beside the weight, so a share
exceeds its exact value by less than the part of one unit that its weight stands
for. The parts of all weights are one unit together: what the shares exceed
their exact values by never adds up to a whole unit.
-/

section Proportion

variable
    {pool weight total : Nat}

/-- What the lowest bits of a long weight can hold is small beside the weight. -/
theorem two_pow_excess_mul_le
    (long : 2 ^ 63 ≤ weight) :
    2 ^ (bitLength weight - 64) * 2 ^ 63 ≤ weight := by
  have notZero : weight ≠ 0 :=
    Nat.ne_of_gt (Nat.lt_of_lt_of_le (Nat.two_pow_pos 63) long)
  have length : 63 < bitLength weight := by
    by_contra short
    have small := bitLength_le_iff.mp (Nat.not_lt.mp short)
    omega
  have leading := two_pow_le_of_bitLength notZero
  have split :
      bitLength weight - 1 = bitLength weight - 64 + 63 := by
    omega
  rwa [split, Nat.pow_add] at leading

/--
A share whose product does not fit is a quotient of what is left of its weight
and of the total in units that are small beside the weight.
-/
theorem exists_unit_of_overflow
    (smallPool : pool < 2 ^ 63)
    (withinTotal : weight ≤ total)
    (overflows : ¬pool * weight < 2 ^ 128) :
    ∃ unit,
      unit * 2 ^ 63 ≤ weight ∧
        0 < unit ∧
        0 < total / unit ∧
        proportionalShare pool weight total =
          pool * (weight / unit) / (total / unit) := by
  have long : 2 ^ 63 ≤ weight := by
    by_contra short
    have fits : pool * weight < 2 ^ 63 * 2 ^ 63 :=
      Nat.mul_lt_mul'' smallPool (Nat.not_le.mp short)
    exact overflows (Nat.lt_trans fits (by decide))
  have excess := two_pow_excess_mul_le long
  have positive := Nat.two_pow_pos (bitLength weight - 64)
  have cutPositive :
      0 < total / 2 ^ (bitLength weight - 64) :=
    Nat.div_pos
      (Nat.le_trans
        (Nat.le_trans (Nat.le_mul_of_pos_right _ (by decide))
          excess)
        withinTotal)
      positive
  refine ⟨_, excess, positive, cutPositive, ?_⟩
  rw [proportionalShare, if_neg overflows]
  simp only [Nat.shiftRight_eq_div_pow]
  rw [Nat.max_eq_left cutPositive]

/--
A share is rounded up, if at all, by less than the part of one unit that its
weight stands for.
-/
theorem mul_proportionalShare_lt
    (smallPool : pool < 2 ^ 63)
    (positive : 0 < weight)
    (withinTotal : weight ≤ total) :
    total * proportionalShare pool weight total <
      pool * weight + weight := by
  by_cases fits : pool * weight < 2 ^ 128
  · have floor : total * (pool * weight / total) ≤ pool * weight :=
      Nat.mul_div_le ..
    rw [proportionalShare, if_pos fits]
    omega
  · have withinPool : proportionalShare pool weight total ≤ pool :=
      proportionalShare_le withinTotal
    obtain ⟨unit, small, unitPositive, -, isShare⟩ :=
      exists_unit_of_overflow smallPool withinTotal fits
    rw [isShare] at withinPool ⊢
    have floor :
        total / unit * (pool * (weight / unit) / (total / unit)) ≤
          pool * (weight / unit) :=
      Nat.mul_div_le ..
    generalize pool * (weight / unit) / (total / unit) = share at *
    calc total * share
        ≤ unit * (total / unit + 1) * share :=
          Nat.mul_le_mul_right share
            (Nat.le_of_lt (Nat.lt_mul_div_succ total unitPositive))
      _ = unit * (total / unit * share) + unit * share := by
          rw [Nat.mul_assoc, Nat.add_one_mul, Nat.mul_add]
      _ ≤ unit * (pool * (weight / unit)) + unit * share :=
          Nat.add_le_add_right (Nat.mul_le_mul_left unit floor) _
      _ = pool * (unit * (weight / unit)) + unit * share := by
          rw [Nat.mul_left_comm]
      _ ≤ pool * weight + unit * share :=
          Nat.add_le_add_right
            (Nat.mul_le_mul_left pool (Nat.mul_div_le weight unit)) _
      _ < pool * weight + unit * 2 ^ 63 :=
          Nat.add_lt_add_left
            (Nat.mul_lt_mul_of_pos_left
              (Nat.lt_of_le_of_lt withinPool smallPool) unitPositive) _
      _ ≤ pool * weight + weight :=
          Nat.add_le_add_left small _

/-- Without a weight there is no share. -/
theorem proportionalShare_zero_weight
    (pool total : Nat) :
    proportionalShare pool 0 total = 0 := by
  simp [proportionalShare]

/-- The shares of all weights fit into the pool together. -/
theorem sum_proportionalShare_le
    (smallPool : pool < 2 ^ 63)
    {weights : List Nat}
    (someWeight : weights.sum ≠ 0) :
    (weights.map fun weight =>
        proportionalShare pool weight weights.sum).sum ≤
      pool := by
  have positive := Nat.pos_of_ne_zero someWeight
  have withinTotal :
      ∀ weight ∈ weights, weight ≤ weights.sum :=
    List.single_le_sum fun weight _ => Nat.zero_le weight
  have atMost :
      ∀ weight ∈ weights,
        weights.sum * proportionalShare pool weight weights.sum ≤
          (pool + 1) * weight := by
    intro weight member
    rcases Nat.eq_zero_or_pos weight with none | some
    · rw [none, proportionalShare_zero_weight, Nat.mul_zero]
      exact Nat.zero_le _
    · rw [Nat.add_one_mul]
      exact
        Nat.le_of_lt
          (mul_proportionalShare_lt smallPool some
            (withinTotal weight member))
  have someLess :
      ∃ weight ∈ weights,
        weights.sum * proportionalShare pool weight weights.sum <
          (pool + 1) * weight := by
    obtain ⟨weight, member, notZero⟩ :=
      List.exists_mem_ne_zero_of_sum_ne_zero someWeight
    refine ⟨weight, member, ?_⟩
    rw [Nat.add_one_mul]
    exact
      mul_proportionalShare_lt smallPool (Nat.pos_of_ne_zero notZero)
        (withinTotal weight member)
  have together := List.sum_lt_sum _ _ atMost someLess
  have scaledShares :
      (weights.map fun weight =>
          weights.sum *
            proportionalShare pool weight weights.sum).sum =
        weights.sum *
          (weights.map fun weight =>
            proportionalShare pool weight weights.sum).sum :=
    List.sum_map_mul_left ..
  have scaledWeights :
      (weights.map fun weight => (pool + 1) * weight).sum =
        weights.sum * (pool + 1) := by
    rw [List.sum_map_mul_left, List.map_id', Nat.mul_comm]
  rw [scaledShares, scaledWeights] at together
  exact Nat.le_of_lt_succ (Nat.lt_of_mul_lt_mul_left together)

end Proportion

end FollowOn

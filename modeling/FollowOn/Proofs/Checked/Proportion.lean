import FollowOn.Ledger.Weighted
import FollowOn.Proofs.Checked.Basic
import Mathlib.Data.List.MinMax
import Mathlib.Order.Nat

namespace FollowOn

/-!
# Checked proportions

The arithmetic of a weighted pass in words of 128 bits. Weights are shifted as
far as their greatest length and that of their number demand, so that their sum
stays within 127 bits. A share whose product does not fit is computed with the
highest 64 bits of its weight, which a pool of 63 bits always allows. No share
exceeds the pool, since no weight exceeds the total.
-/

namespace Checked

/-- Weights shifted by a common amount so that their sum fits in 127 bits. -/
def normalize (weights : List Nat) : Option (List Nat) := do
  let lengths ← weights.mapM (digits? 128)
  let lengthOfCount ← digits? 64 weights.length
  let length ← word? 32 (lengths.foldr max 0 + lengthOfCount)
  weights.mapM fun weight => shiftDown? 128 weight (length - 127)

/-- `pool · weight / total`, rounded down, with a cut weight if need be. -/
def proportion (pool weight total : Nat) : Option Nat :=
  match word? 128 (pool * weight) with
  | some product => quotient? product total
  | none => do
      let length ← digits? 128 weight
      let cutWeight ← shiftDown? 128 weight (length - 64)
      let product ← word? 128 (pool * cutWeight)
      let cutTotal ← shiftDown? 128 total (length - 64)
      quotient? product (max cutTotal 1)

end Checked

section Normalize

variable
    {weights : List Nat}

/-- No weight is longer than the longest one. -/
theorem bitLength_le_foldr_max
    {weight : Nat}
    (member : weight ∈ weights) :
    bitLength weight ≤ (weights.map bitLength).foldr max 0 :=
  List.le_max_of_le (List.mem_map_of_mem member) (Nat.le_refl _)

/-- Words of some number of bits have no longer weight among them. -/
theorem foldr_max_bitLength_le
    {bits : Nat}
    (words : ∀ weight ∈ weights, weight < 2 ^ bits) :
    (weights.map bitLength).foldr max 0 ≤ bits := by
  apply List.max_le_of_forall_le
  intro length member
  obtain ⟨weight, inWeights, same⟩ := List.mem_map.mp member
  rw [← same]
  exact bitLength_le_iff.mpr (words weight inWeights)

/-- The greatest length that is left of a weight. -/
def lengthLeft (weights : List Nat) : Nat :=
  (weights.map bitLength).foldr max 0 - weightShift weights

/-- The shift makes up for the length that the longest weight may not keep. -/
theorem lengthLeft_add_weightShift
    (countLength : bitLength weights.length ≤ 127) :
    (weights.map bitLength).foldr max 0 =
      lengthLeft weights + weightShift weights := by
  unfold lengthLeft weightShift
  omega

/-- What is left of the longest weight, and their number, fit in 127 bits together. -/
theorem lengthLeft_add_bitLength_le
    (countLength : bitLength weights.length ≤ 127) :
    bitLength weights.length + lengthLeft weights ≤ 127 := by
  unfold lengthLeft weightShift
  omega

/-- Weights are shifted so far that their sum fits in 127 bits. -/
theorem sum_normalizeWeights_le
    (few : weights.length < 2 ^ 64) :
    (normalizeWeights weights).sum ≤ 2 ^ 127 := by
  have countLength : bitLength weights.length ≤ 127 :=
    Nat.le_trans (bitLength_le_iff.mpr few) (by decide)
  have atMost :
      ∀ weight ∈ normalizeWeights weights,
        weight ≤ 2 ^ lengthLeft weights := by
    intro shifted member
    obtain ⟨weight, inWeights, same⟩ := List.mem_map.mp member
    have length := bitLength_le_foldr_max inWeights
    rw [lengthLeft_add_weightShift countLength] at length
    rw [← same, Nat.shiftRight_eq_div_pow]
    apply Nat.le_of_lt
    rw [Nat.div_lt_iff_lt_mul (Nat.two_pow_pos _), ← Nat.pow_add]
    exact bitLength_le_iff.mp length
  calc (normalizeWeights weights).sum
      ≤ (normalizeWeights weights).length •
          2 ^ lengthLeft weights :=
        List.sum_le_card_nsmul _ _ atMost
    _ ≤ 2 ^ bitLength weights.length * 2 ^ lengthLeft weights := by
        rw [normalizeWeights, List.length_map, Nat.nsmul_eq_mul]
        exact
          Nat.mul_le_mul_right _
            (Nat.le_of_lt (lt_two_pow_bitLength weights.length))
    _ ≤ 2 ^ 127 := by
        rw [← Nat.pow_add]
        exact
          Nat.pow_le_pow_right Nat.two_pos
            (lengthLeft_add_bitLength_le countLength)

/-- Words of 128 bits are shifted without leaving the words. -/
theorem Checked.normalize_eq
    (words : ∀ weight ∈ weights, weight < 2 ^ 128)
    (few : weights.length < 2 ^ 64) :
    normalize weights = some (normalizeWeights weights) := by
  have lengths :
      weights.mapM (digits? 128) = some (weights.map bitLength) :=
    mapM_eq_some_map fun weight member =>
      digits?_of_lt (words weight member)
  have longest := foldr_max_bitLength_le words
  have countLength : bitLength weights.length ≤ 64 :=
    bitLength_le_iff.mpr few
  have lengthFits :
      word? 32
          ((weights.map bitLength).foldr max 0 +
            bitLength weights.length) =
        some
          ((weights.map bitLength).foldr max 0 +
            bitLength weights.length) :=
    word?_of_lt (by omega)
  simp only [normalize, lengths, digits?_of_lt few, lengthFits,
    Option.bind_eq_bind, Option.bind_some]
  apply mapM_eq_some_map
  intro weight _
  exact shiftDown?_of_lt (by omega) weight

end Normalize

section Proportion

variable
    {pool weight total : Nat}

/-- The highest 64 binary digits of a number fit in 64 bits. -/
theorem shiftRight_bitLength_lt
    (weight : Nat) :
    weight >>> (bitLength weight - 64) < 2 ^ 64 := by
  rw [Nat.shiftRight_eq_div_pow,
    Nat.div_lt_iff_lt_mul (Nat.two_pow_pos _), ← Nat.pow_add]
  apply bitLength_le_iff.mp
  omega

/-- A share is computed without leaving the words. -/
theorem Checked.proportion_eq
    (smallPool : pool < 2 ^ 63)
    (isWord : weight < 2 ^ 128)
    (positive : 0 < total) :
    proportion pool weight total =
      some (proportionalShare pool weight total) := by
  by_cases fits : pool * weight < 2 ^ 128
  · rw [proportion, proportionalShare, word?_of_lt fits, if_pos fits]
    exact quotient?_of_pos positive _
  · have length := bitLength_le_iff.mpr isWord
    have cut : bitLength weight - 64 < 128 := by
      omega
    have product :
        pool * (weight >>> (bitLength weight - 64)) < 2 ^ 128 :=
      calc pool * (weight >>> (bitLength weight - 64))
          ≤ 2 ^ 63 * 2 ^ 64 :=
            Nat.mul_le_mul (Nat.le_of_lt smallPool)
              (Nat.le_of_lt (shiftRight_bitLength_lt weight))
        _ < 2 ^ 128 := by
            decide
    have divisor :
        0 < max (total >>> (bitLength weight - 64)) 1 :=
      Nat.lt_of_lt_of_le Nat.one_pos (Nat.le_max_right _ 1)
    rw [proportion, proportionalShare, word?_eq_none fits, if_neg fits]
    simp only [digits?_of_lt isWord, shiftDown?_of_lt cut,
      word?_of_lt product, quotient?_of_pos divisor,
      Option.bind_eq_bind, Option.bind_some]

/-- A weight within the total gives a share within the pool. -/
theorem proportionalShare_le
    (withinTotal : weight ≤ total) :
    proportionalShare pool weight total ≤ pool := by
  unfold proportionalShare
  split
  · apply Nat.div_le_of_le_mul
    rw [Nat.mul_comm]
    exact Nat.mul_le_mul_right pool withinTotal
  · apply Nat.div_le_of_le_mul
    rw [Nat.mul_comm]
    apply Nat.mul_le_mul_right pool
    refine Nat.le_trans ?_ (Nat.le_max_left _ 1)
    simp only [Nat.shiftRight_eq_div_pow]
    exact Nat.div_le_div_right withinTotal

end Proportion

end FollowOn

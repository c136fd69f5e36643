import FollowOn.Proofs.Ledger.Proportion
import Mathlib.Data.List.Perm.Subperm

namespace FollowOn

/-!
# How accurate proportional shares are

The share of a long weight is a quotient of two numbers that have both lost
their lowest places. What the weight loses makes the share smaller and what the
total loses makes it greater, but neither comes to a whole unit of a pool of 63
bits. So the share is the exact one rounded down, or a neighbour of it. All
weights are shifted by one distance, far enough to keep their sum within 127
bits, and so their sums are exact although they are added with saturation.
-/

section Share

variable
    {pool weight total : Nat}
    (smallPool : pool < 2 ^ 63)
    (positive : 0 < total)
    (withinTotal : weight ≤ total)

include smallPool positive withinTotal

/-- A share is at most one unit above the exact one rounded down. -/
theorem proportionalShare_le_floor_add_one :
    proportionalShare pool weight total ≤
      pool * weight / total + 1 := by
  rcases Nat.eq_zero_or_pos weight with none | some
  · rw [none, proportionalShare_zero_weight]
    exact Nat.zero_le _
  · have exceeds :=
      mul_proportionalShare_lt smallPool some withinTotal
    rw [← Nat.add_div_right _ positive,
      Nat.le_div_iff_mul_le positive, Nat.mul_comm]
    omega

/-- A share is at most one unit below the exact one rounded down. -/
theorem floor_le_proportionalShare_add_one :
    pool * weight / total ≤
      proportionalShare pool weight total + 1 := by
  by_cases fits : pool * weight < 2 ^ 128
  · rw [proportionalShare, if_pos fits]
    exact Nat.le_succ _
  · obtain ⟨unit, small, unitPositive, cutPositive, isShare⟩ :=
      exists_unit_of_overflow smallPool withinTotal fits
    have ceiling :
        pool * (weight / unit) <
          total / unit *
            (pool * (weight / unit) / (total / unit) + 1) :=
      Nat.lt_mul_div_succ _ cutPositive
    rw [← isShare] at ceiling
    generalize proportionalShare pool weight total = share at *
    -- What the weight has lost is worth less than one unit of the pool.
    have lost : pool * unit < total :=
      calc pool * unit
          < 2 ^ 63 * unit :=
            Nat.mul_lt_mul_of_pos_right smallPool unitPositive
        _ ≤ weight := by
            rw [Nat.mul_comm]
            exact small
        _ ≤ total := withinTotal
    have exceeds : pool * weight < total * (share + 2) :=
      calc pool * weight
          ≤ pool * (unit * (weight / unit + 1)) :=
            Nat.mul_le_mul_left pool
              (Nat.le_of_lt (Nat.lt_mul_div_succ weight unitPositive))
        _ = unit * (pool * (weight / unit)) + pool * unit := by
            rw [Nat.mul_add_one, Nat.mul_add, Nat.mul_left_comm]
        _ ≤ unit * (total / unit * (share + 1)) + pool * unit :=
            Nat.add_le_add_right
              (Nat.mul_le_mul_left unit (Nat.le_of_lt ceiling)) _
        _ = unit * (total / unit) * (share + 1) + pool * unit := by
            rw [Nat.mul_assoc]
        _ ≤ total * (share + 1) + pool * unit :=
            Nat.add_le_add_right
              (Nat.mul_le_mul_right _ (Nat.mul_div_le total unit)) _
        _ < total * (share + 1) + total :=
            Nat.add_lt_add_left lost _
        _ = total * (share + 2) := rfl
    rw [Nat.mul_comm total] at exceeds
    exact Nat.le_of_lt_succ ((Nat.div_lt_iff_lt_mul positive).mpr exceeds)

end Share

/-- A share, computed in words, that is the exact one rounded down or a neighbour of it. -/
structure IsAccurateShare
    (pool weight total share : Nat) : Prop where
  computed : Checked.proportion pool weight total = some share
  eq_floor_of_fits :
    pool * weight < 2 ^ 128 → share = pool * weight / total
  le_floor_add_one : share ≤ pool * weight / total + 1
  floor_le_add_one : pool * weight / total ≤ share + 1
  le_pool : share ≤ pool

/-- A proportional share is exact where the product fits, and within one unit elsewhere. -/
theorem isAccurateShare_proportionalShare
    {pool weight total : Nat}
    (smallPool : pool < 2 ^ 63)
    (positive : 0 < total)
    (totalAtMost : total ≤ 2 ^ 127)
    (withinTotal : weight ≤ total) :
    IsAccurateShare pool weight total
      (proportionalShare pool weight total) where
  computed := by
    have isWord : weight < 2 ^ 128 :=
      Nat.lt_of_le_of_lt
        (Nat.le_trans withinTotal totalAtMost) (by decide)
    exact Checked.proportion_eq smallPool isWord positive
  eq_floor_of_fits fits := by
    rw [proportionalShare, if_pos fits]
  le_floor_add_one :=
    proportionalShare_le_floor_add_one smallPool positive withinTotal
  floor_le_add_one :=
    floor_le_proportionalShare_add_one smallPool positive withinTotal
  le_pool := proportionalShare_le withinTotal

namespace Checked

/-- The sum of two words of 128 bits, or the greatest word if they exceed it. -/
def saturatingAdd (left right : Nat) : Nat :=
  min (left + right) (2 ^ 128 - 1)

/-- Words that are added one by one, with saturation. -/
def saturatingSum (values : List Nat) : Nat :=
  values.foldl saturatingAdd 0

/-- Saturation on the way comes to the same as saturation at the end. -/
theorem foldl_saturatingAdd
    {start : Nat}
    (isWord : start < 2 ^ 128)
    (values : List Nat) :
    values.foldl saturatingAdd start =
      min (start + values.sum) (2 ^ 128 - 1) := by
  induction values generalizing start with
  | nil =>
      rw [List.foldl_nil, List.sum_nil]
      omega
  | cons value rest inductionHypothesis =>
      have next : saturatingAdd start value < 2 ^ 128 := by
        unfold saturatingAdd
        omega
      rw [List.foldl_cons, inductionHypothesis next, List.sum_cons]
      unfold saturatingAdd
      omega

/-- A sum that fits in 128 bits is not cut off on the way. -/
theorem saturatingSum_eq_sum
    {values : List Nat}
    (fits : values.sum < 2 ^ 128) :
    saturatingSum values = values.sum := by
  rw [saturatingSum, foldl_saturatingAdd (by decide), Nat.zero_add]
  omega

end Checked

section Weights

variable
    {weights : List Nat}

/-- The longer of two numbers is the greater one. -/
theorem bitLength_max
    (left right : Nat) :
    bitLength (max left right) =
      max (bitLength left) (bitLength right) :=
  Monotone.map_max fun _ _ => bitLength_mono

/-- The greatest length is that of the greatest weight. -/
theorem foldr_max_bitLength
    (weights : List Nat) :
    (weights.map bitLength).foldr max 0 =
      bitLength (weights.foldr max 0) := by
  induction weights with
  | nil =>
      rfl
  | cons weight rest inductionHypothesis =>
      rw [List.map_cons, List.foldr_cons, inductionHypothesis,
        List.foldr_cons, bitLength_max]

/-- The shift depends on the greatest weight and on the number of weights only. -/
theorem weightShift_eq
    (weights : List Nat) :
    weightShift weights =
      bitLength (weights.foldr max 0) +
        bitLength weights.length - 127 := by
  unfold weightShift
  rw [foldr_max_bitLength]

/-- Normalized weights are the weights by one power of two, rounded down. -/
theorem normalizeWeights_eq_map_div
    (weights : List Nat) :
    normalizeWeights weights =
      weights.map (· / 2 ^ weightShift weights) := by
  simp only [normalizeWeights, Nat.shiftRight_eq_div_pow]

/-- Each weight is normalized at its own place. -/
theorem getD_normalizeWeights
    (weights : List Nat)
    (place : Nat) :
    (normalizeWeights weights).getD place 0 =
      weights.getD place 0 / 2 ^ weightShift weights := by
  rw [normalizeWeights_eq_map_div, List.getD_eq_getElem?_getD,
    List.getD_eq_getElem?_getD, List.getElem?_map]
  cases weights[place]? with
  | none => simp
  | some weight => rfl

/-- A part of some numbers, in any order, has no greater sum. -/
theorem sum_le_of_subperm
    {part whole : List Nat}
    (isPart : part.Subperm whole) :
    part.sum ≤ whole.sum := by
  obtain ⟨ordered, reordered, sublist⟩ := isPart
  rw [← reordered.sum_eq]
  exact sublist.sum_le_sum fun _ _ => Nat.zero_le _

/--
Weights after a common shift: in the same order, with a sum of at most 127 bits,
and unchanged where they are short and few.
-/
structure AreNormalized
    (weights normalized : List Nat) : Prop where
  computed : Checked.normalize weights = some normalized
  /-- All weights are shifted by one distance, which the greatest of them and their number give. -/
  eq_map_div :
    normalized =
      weights.map
        (· / 2 ^
          (bitLength (weights.foldr max 0) +
            bitLength weights.length - 127))
  /-- A place without a weight counts as zero. -/
  order_kept :
    ∀ first second,
      weights.getD first 0 ≤ weights.getD second 0 →
        normalized.getD first 0 ≤ normalized.getD second 0
  sum_le : normalized.sum ≤ 2 ^ 127
  /-- Some of the weights, added in any order, never reach saturation. -/
  saturatingSum_eq :
    ∀ part : List Nat,
      part.Subperm normalized →
        Checked.saturatingSum part = part.sum
  eq_self_of_short :
    bitLength (weights.foldr max 0) + bitLength weights.length ≤
        127 →
      normalized = weights

/--
Weights of 128 bits are normalized so that their sum and their products stay in
range.
-/
theorem areNormalized_normalizeWeights
    (few : weights.length < 2 ^ 64)
    (words : ∀ weight ∈ weights, weight < 2 ^ 128) :
    AreNormalized weights (normalizeWeights weights) where
  computed := Checked.normalize_eq words few
  eq_map_div := by
    rw [normalizeWeights_eq_map_div, weightShift_eq]
  order_kept first second ordered := by
    rw [getD_normalizeWeights, getD_normalizeWeights]
    exact Nat.div_le_div_right ordered
  sum_le := sum_normalizeWeights_le few
  saturatingSum_eq part isPart := by
    apply Checked.saturatingSum_eq_sum
    calc part.sum
        ≤ (normalizeWeights weights).sum := sum_le_of_subperm isPart
      _ ≤ 2 ^ 127 := sum_normalizeWeights_le few
      _ < 2 ^ 128 := by decide
  eq_self_of_short short := by
    have noShift : weightShift weights = 0 := by
      rw [weightShift_eq]
      exact Nat.sub_eq_zero_of_le short
    simp [normalizeWeights_eq_map_div, noShift]

end Weights

/--
A share of a pool of 63 bits is computed in words of 128 bits, exactly where its
product fits and otherwise within one unit of the exact share rounded down, and
it never exceeds the pool. Weights that are words are shifted together so that
they keep their order and all their sums are exact.
-/
theorem proportional_shares_are_accurate :
    (∀ pool weight total : Nat,
      pool < 2 ^ 63 →
        0 < total →
        total ≤ 2 ^ 127 →
        weight ≤ total →
        IsAccurateShare pool weight total
          (proportionalShare pool weight total)) ∧
      ∀ weights : List Nat,
        weights.length < 2 ^ 64 →
          (∀ weight ∈ weights, weight < 2 ^ 128) →
          AreNormalized weights (normalizeWeights weights) :=
  ⟨fun _ _ _ => isAccurateShare_proportionalShare,
    fun _ => areNormalized_normalizeWeights⟩

/--
The share of a long weight may come out one unit too large or one unit too
small. Two of the greatest words are shifted by three places, and then a small
weight beside them is lost.
-/
theorem proportional_shares_are_accurate_bothWays :
    let pool := 2 ^ 63 - 1
    let larger := proportionalShare pool (2 ^ 66) (2 ^ 66 + 7)
    let smaller :=
      proportionalShare pool (2 ^ 125 + 2 ^ 62 - 1) (2 ^ 125 + 2 ^ 63)
    let weights := [2 ^ 128 - 1, 2 ^ 128 - 1, 7]
    IsAccurateShare pool (2 ^ 66) (2 ^ 66 + 7) larger ∧
      larger = pool * 2 ^ 66 / (2 ^ 66 + 7) + 1 ∧
      IsAccurateShare pool (2 ^ 125 + 2 ^ 62 - 1)
        (2 ^ 125 + 2 ^ 63) smaller ∧
      pool * (2 ^ 125 + 2 ^ 62 - 1) / (2 ^ 125 + 2 ^ 63) =
        smaller + 1 ∧
      AreNormalized weights (normalizeWeights weights) ∧
      normalizeWeights weights = [2 ^ 125 - 1, 2 ^ 125 - 1, 0] := by
  obtain ⟨shares, normalized⟩ := proportional_shares_are_accurate
  refine ⟨?_, by decide, ?_, by decide, ?_, by decide⟩
  · exact
      shares _ _ _ (by decide) (by decide) (by decide) (by decide)
  · exact
      shares _ _ _ (by decide) (by decide) (by decide) (by decide)
  · exact normalized _ (by decide) (by decide)

end FollowOn

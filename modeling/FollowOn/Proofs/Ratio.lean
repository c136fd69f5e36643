import FollowOn.Proofs.Binary64
import FollowOn.Ratio

namespace FollowOn

/-!
# Ratios as floating-point numbers

Below `2 ^ 33` the floating-point numbers lie closer together than millionths,
so a ratio of that size is told apart from every other ratio by the number
nearest to it. Above, neighbours may share their number.
-/

namespace Ratio

open Binary64

/-- A ratio below `2 ^ 33`, where floating-point numbers are finer than millionths. -/
def IsResolved (ratio : Ratio) : Prop :=
  ratio.micros.natAbs < 2 ^ 33 * 1000000

instance (ratio : Ratio) : Decidable ratio.IsResolved :=
  inferInstanceAs (Decidable (_ < _))

/-- A million is held exactly. -/
theorem ofInt_scale :
    Binary64.ofInt scale =
      .finite false (1000000 * unitsPerOne) :=
  ofInt_of_natAbs_lt (by decide)

/-- A million has units. -/
theorem scale_units_pos :
    0 < 1000000 * unitsPerOne :=
  Nat.mul_pos (by decide) unitsPerOne_pos

/-- The number of a ratio below `2 ^ 53` millionths is rounded once. -/
theorem toBinary64_of_natAbs_lt
    {ratio : Ratio}
    (small : ratio.micros.natAbs < 2 ^ 53) :
    ratio.toBinary64 =
      nearest (decide (ratio.micros < 0))
        ratio.micros.natAbs 1000000 := by
  rw [toBinary64, ofInt_scale, ofInt_of_natAbs_lt small, div,
    if_neg (Nat.ne_of_gt scale_units_pos),
    nearest_mul_right unitsPerOne_pos, Bool.bne_false]

/-- Any other ratio is infinite or at least `2 ^ 33` as a number. -/
theorem toBinary64_of_le_natAbs
    {ratio : Ratio}
    (large : 2 ^ 53 ≤ ratio.micros.natAbs) :
    (∃ negative, ratio.toBinary64 = .infinite negative) ∨
      ∃ negative units,
        ratio.toBinary64 = .finite negative units ∧
          2 ^ 33 * unitsPerOne ≤ units := by
  rw [toBinary64, ofInt_scale]
  rcases ofInt_of_le_natAbs large with
    ⟨negative, isInfinite⟩ | ⟨negative, units, isFinite, reaches⟩
  · rw [isInfinite]
    exact Or.inl ⟨_, rfl⟩
  · rw [isFinite, div, if_neg (Nat.ne_of_gt scale_units_pos),
      nearest_eq]
    split
    · refine Or.inr ⟨_, _, rfl, ?_⟩
      exact two_pow_mul_le_nearestUnits scale_units_pos (by omega)
    · exact Or.inl ⟨_, rfl⟩

section Resolved

variable
    {fewer millionths : Nat}
    (resolved : fewer < 2 ^ 33 * 1000000)

include resolved

/-- Below `2 ^ 33` half a grid step is less than half a millionth. -/
theorem mul_gridOf_lt_unitsPerOne :
    1000000 * gridOf (fewer * unitsPerOne / 1000000) <
      unitsPerOne := by
  have bounded :
      fewer * unitsPerOne / 1000000 < 2 ^ 33 * unitsPerOne := by
    rw [Nat.div_lt_iff_lt_mul (by decide), Nat.mul_right_comm]
    exact Nat.mul_lt_mul_of_pos_right resolved unitsPerOne_pos
  have finer := gridOf_mul_le bounded (Nat.le_refl (33 + 20))
  have step := gridOf_pos (fewer * unitsPerOne / 1000000)
  omega

/-- Below `2 ^ 33` rounding moves a ratio by less than half a millionth. -/
theorem two_mul_nearestUnits_lt :
    2 * (nearestUnits fewer 1000000 * 1000000) <
      2 * (fewer * unitsPerOne) + unitsPerOne :=
  Nat.lt_of_le_of_lt
    (two_mul_nearestUnits_le (by decide) fewer)
    (Nat.add_lt_add_left (mul_gridOf_lt_unitsPerOne resolved) _)

/-- A ratio below `2 ^ 33` is not rounded up to it. -/
theorem nearestUnits_lt_of_resolved :
    nearestUnits fewer 1000000 < 2 ^ 33 * unitsPerOne := by
  have error := two_mul_nearestUnits_lt resolved
  have next :
      (fewer + 1) * unitsPerOne ≤
        2 ^ 33 * 1000000 * unitsPerOne :=
    Nat.mul_le_mul_right unitsPerOne resolved
  rw [Nat.add_mul] at next
  omega

/-- More millionths than some below `2 ^ 33` have a greater number. -/
theorem nearestUnits_lt_nearestUnits
    (more : fewer < millionths) :
    nearestUnits fewer 1000000 < nearestUnits millionths 1000000 := by
  by_cases moreResolved : millionths < 2 ^ 33 * 1000000
  · have fewerError := two_mul_nearestUnits_lt resolved
    have error :=
      two_mul_le_nearestUnits
        (show 0 < 1000000 by decide) millionths
    have grid := mul_gridOf_lt_unitsPerOne moreResolved
    have next :
        (fewer + 1) * unitsPerOne ≤ millionths * unitsPerOne :=
      Nat.mul_le_mul_right unitsPerOne more
    rw [Nat.add_mul] at next
    omega
  · exact Nat.lt_of_lt_of_le (nearestUnits_lt_of_resolved resolved)
      (two_pow_mul_le_nearestUnits (by decide)
        (Nat.le_of_not_lt moreResolved))

end Resolved

/-- The number of a ratio below `2 ^ 33` is finite and rounded once. -/
theorem IsResolved.toBinary64_eq
    {ratio : Ratio}
    (resolved : ratio.IsResolved) :
    ratio.toBinary64 =
      .finite (decide (ratio.micros < 0))
        (nearestUnits ratio.micros.natAbs 1000000) := by
  have small : ratio.micros.natAbs < 2 ^ 53 :=
    Nat.lt_trans resolved (by decide)
  rw [toBinary64_of_natAbs_lt small]
  exact nearest_of_lt_unitLimit _
    (lt_unitLimit_of_lt (nearestUnits_lt_of_resolved resolved)
      (by decide))

/-- No ratio of greater magnitude shares the number of a ratio below `2 ^ 33`. -/
theorem IsResolved.natAbs_le
    {ratio other : Ratio}
    (resolved : ratio.IsResolved)
    (same : ratio.toBinary64 = other.toBinary64) :
    other.micros.natAbs ≤ ratio.micros.natAbs := by
  apply Nat.le_of_not_lt
  intro more
  rw [resolved.toBinary64_eq] at same
  by_cases small : other.micros.natAbs < 2 ^ 53
  · rw [toBinary64_of_natAbs_lt small, nearest_eq] at same
    split at same
    · injection same with _ sameUnits
      exact Nat.ne_of_lt
        (nearestUnits_lt_nearestUnits resolved more) sameUnits
    · cases same
  · rcases toBinary64_of_le_natAbs (Nat.le_of_not_lt small) with
      ⟨negative, isInfinite⟩ | ⟨negative, units, isFinite, reaches⟩
    · rw [isInfinite] at same
      cases same
    · rw [isFinite] at same
      injection same with _ sameUnits
      have bounded := nearestUnits_lt_of_resolved resolved
      omega

/-- A ratio below `2 ^ 33` is told apart from every other one by its number. -/
theorem IsResolved.eq_of_toBinary64_eq
    {ratio other : Ratio}
    (resolved : ratio.IsResolved)
    (same : ratio.toBinary64 = other.toBinary64) :
    ratio = other := by
  have atMost := resolved.natAbs_le same
  have otherResolved : other.IsResolved :=
    Nat.lt_of_le_of_lt atMost resolved
  have atLeast := otherResolved.natAbs_le same.symm
  rw [resolved.toBinary64_eq, otherResolved.toBinary64_eq] at same
  injection same with sameSign
  have sign := decide_eq_decide.mp sameSign
  have sameMicros : ratio.micros = other.micros := by
    omega
  cases ratio
  cases other
  exact congrArg Ratio.mk sameMicros

/-- The number of a ratio is one that 64 bits can hold. -/
theorem representable_toBinary64
    (ratio : Ratio) :
    ratio.toBinary64.Representable := by
  rw [toBinary64, ofInt_scale]
  cases ofInt ratio.micros with
  | nan => exact trivial
  | infinite negative => exact trivial
  | finite negative units =>
      rw [div, if_neg (Nat.ne_of_gt scale_units_pos)]
      exact representable_nearest scale_units_pos _ units

end Ratio

end FollowOn

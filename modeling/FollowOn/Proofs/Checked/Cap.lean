import FollowOn.Cap
import FollowOn.Proofs.Checked.Basic
import Mathlib.Data.List.ReduceOption

namespace FollowOn

/-!
# Checked caps

A cap is computed in checked steps: the product of an amount and a ratio is a
word of 128 bits, and what comes out of it is cut back to an amount. So a cap of
stored amounts and ratios has a result, which is an amount again.
-/

/-- The numbers of a company fit where they are stored. -/
structure Company.IsStored (company : Company) : Prop where
  invested_inRange : Amount.InRange company.invested
  hardCap_inRange :
    ∀ amount, company.hardCap = some amount → Amount.InRange amount

/-- The numbers of a policy fit where they are stored. -/
structure StagePolicy.IsStored (policy : StagePolicy) : Prop where
  reserveMultiple_inRange :
    Amount.InRange policy.reserveMultiple.micros
  priorityWeight_inRange :
    Amount.InRange policy.priorityWeight.micros

/-- The numbers of constraints fit where they are stored. -/
structure Constraints.IsStored (constraints : Constraints) : Prop where
  minReserve_inRange :
    ∀ amount,
      constraints.minReserve = some amount → Amount.InRange amount
  maxReserve_inRange :
    ∀ amount,
      constraints.maxReserve = some amount → Amount.InRange amount
  maxShare_inRange :
    ∀ share,
      constraints.maxShare = some share → Amount.InRange share.micros

/-- The ratio that stands in for a missing one is a word of 64 bits. -/
theorem Ratio.one_inRange :
    Amount.InRange Ratio.one.micros := by
  decide

namespace Checked

/-- An amount multiplied by a ratio, rounded down and saturated. -/
def applyRatio
    (ratio : Ratio)
    (amount : Int) :
    Option Int := do
  let product ← wide? (amount * ratio.micros)
  let quotient ← wide? (product / Ratio.scale)
  some (Amount.saturate quotient)

/-- The bound that always applies: a multiple of the invested capital. -/
def stageBound
    (company : Company)
    (policy : Option StagePolicy) :
    Option Bound := do
  let amount ←
    applyRatio (stageMultipleOf policy) company.invested
  some
    { amount := amount
      reason :=
        if policy.isNone then .defaultPolicy else .stageMultiple }

/-- The bound by the greatest share of the available capital, if it is set. -/
def shareBound
    (constraints : Constraints)
    (available : Int) :
    Option (Option Bound) :=
  match constraints.maxShare with
  | none => some none
  | some share => do
      let amount ← applyRatio share available
      some (some (Bound.mk amount .concentration))

/-- The bounds that apply only if they are set, in their order. -/
def optionalBounds
    (company : Company)
    (constraints : Constraints)
    (available : Int) :
    Option (List Bound) := do
  let concentration ← shareBound constraints available
  some
    [company.hardCap.map (Bound.mk · .explicitCap),
      constraints.maxReserve.map (Bound.mk · .maxReserve),
      concentration].reduceOption

/-- The cap of a company whose stage has the given policy. -/
def cap
    (company : Company)
    (policy : Option StagePolicy)
    (constraints : Constraints)
    (available : Int) :
    Option Cap := do
  let binding ←
    if company.invested ≤ 0 then
      some (Bound.mk 0 .zeroInvested)
    else do
      let bounds ← optionalBounds company constraints available
      let last ← stageBound company policy
      some (tightest bounds last)
  some
    { amount := max 0 binding.amount
      reason := binding.reason
      policyDefaulted := policy.isNone
      priorityWeight :=
        (policy.map StagePolicy.priorityWeight).getD Ratio.one }

/-- The product of two signed words of 64 bits is one of 128 bits. -/
theorem mul_bounds
    {left right : Int}
    (leftInRange : Amount.InRange left)
    (rightInRange : Amount.InRange right) :
    -2 ^ 126 ≤ left * right ∧ left * right ≤ 2 ^ 126 := by
  simp only [Amount.InRange, Amount.least, Amount.greatest] at *
  have leftSize : left.natAbs ≤ 2 ^ 63 := by omega
  have rightSize : right.natAbs ≤ 2 ^ 63 := by omega
  have size : (left * right).natAbs ≤ 2 ^ 63 * 2 ^ 63 := by
    rw [Int.natAbs_mul]
    exact Nat.mul_le_mul leftSize rightSize
  omega

/-- The product of words fits in 128 bits, and saturation brings it back to 64. -/
theorem applyRatio_eq
    {ratio : Ratio}
    {amount : Int}
    (ratioInRange : Amount.InRange ratio.micros)
    (inRange : Amount.InRange amount) :
    applyRatio ratio amount = some (ratio.applyTo amount) := by
  have bounds := mul_bounds inRange ratioInRange
  have product :
      wide? (amount * ratio.micros) = some (amount * ratio.micros) :=
    wide?_of_bounds (by omega) (by omega)
  have quotient :
      wide? (amount * ratio.micros / Ratio.scale) =
        some (amount * ratio.micros / Ratio.scale) := by
    apply wide?_of_bounds <;> simp only [Ratio.scale] <;> omega
  simp only [applyRatio, product, quotient, Option.bind_eq_bind,
    Option.bind_some]
  rfl

section Bounds

variable
    {company : Company}
    {policy : Option StagePolicy}
    {constraints : Constraints}
    {available : Int}
    (companyStored : company.IsStored)
    (policyStored :
      ∀ found, policy = some found → found.IsStored)
    (constraintsStored : constraints.IsStored)
    (availableInRange : Amount.InRange available)

include companyStored policyStored in
/-- The bound of a stored policy, or of none, is computed within its words. -/
theorem stageBound_eq :
    stageBound company policy =
      some (FollowOn.stageBound company policy) := by
  have multiple : Amount.InRange (stageMultipleOf policy).micros := by
    cases policy with
    | none => exact Ratio.one_inRange
    | some found =>
        exact (policyStored found rfl).reserveMultiple_inRange
  rw [stageBound,
    applyRatio_eq multiple companyStored.invested_inRange]
  rfl

include constraintsStored availableInRange in
/-- The bounds that may be absent are computed within their words. -/
theorem optionalBounds_eq :
    optionalBounds company constraints available =
      some (FollowOn.optionalBounds company constraints available) := by
  have share :
      shareBound constraints available =
        some
          (constraints.maxShare.map fun share =>
            Bound.mk (share.applyTo available) .concentration) := by
    cases set : constraints.maxShare with
    | none =>
        simp only [shareBound, set, Option.map_none]
    | some share =>
        have inRange := constraintsStored.maxShare_inRange share set
        simp only [shareBound, set, Option.map_some,
          applyRatio_eq inRange availableInRange,
          Option.bind_eq_bind, Option.bind_some]
  rw [optionalBounds, share]
  rfl

include companyStored policyStored constraintsStored availableInRange in
/-- A cap of stored numbers is computed without leaving the words. -/
theorem cap_eq :
    cap company policy constraints available =
      some (evaluateCap company policy constraints available) := by
  simp only [cap, evaluateCap]
  split
  · rfl
  · rw [optionalBounds_eq constraintsStored availableInRange,
      stageBound_eq companyStored policyStored]
    rfl

include companyStored constraintsStored in
/-- A cap of stored numbers is an amount. -/
theorem evaluateCap_amount_le :
    (evaluateCap company policy constraints available).amount ≤
      Amount.greatest := by
  have notNegative : 0 ≤ Amount.greatest := by decide
  have bounds :
      ∀ bound ∈
        FollowOn.optionalBounds company constraints available ++
          [FollowOn.stageBound company policy],
        bound.amount ≤ Amount.greatest := by
    intro bound member
    simp only [FollowOn.optionalBounds, List.mem_append,
      List.reduceOption_mem_iff, List.mem_cons, List.not_mem_nil,
      or_false] at member
    rcases member with (hardCap | maxReserve | maxShare) | stage
    · obtain ⟨amount, set, same⟩ :=
        Option.map_eq_some_iff.mp hardCap.symm
      rw [← same]
      exact (companyStored.hardCap_inRange amount set).2
    · obtain ⟨amount, set, same⟩ :=
        Option.map_eq_some_iff.mp maxReserve.symm
      rw [← same]
      exact (constraintsStored.maxReserve_inRange amount set).2
    · obtain ⟨share, -, same⟩ :=
        Option.map_eq_some_iff.mp maxShare.symm
      rw [← same]
      exact (share.inRange_applyTo available).2
    · rw [stage]
      exact (Ratio.inRange_applyTo _ company.invested).2
  simp only [evaluateCap]
  split
  · exact notNegative
  · have binding := bounds _ (tightest_mem _ _)
    exact Int.max_le.mpr ⟨notNegative, binding⟩

end Bounds

end Checked

end FollowOn

import FollowOn.Proofs.Checked.Plan
import Mathlib.Algebra.Order.Group.Unbundled.Int

namespace FollowOn

/-!
# What the audit finds

The audit passes exactly if the exact sums reconcile and no amount lies outside
its cap, also on amounts that no plan would hold: in words of 128 bits no sum
is cut, and only the report is. The order of the allocations plays no part,
and a greater tolerance finds no more. Since a plan accounts for its capital
to the last unit, any change of one amount that exceeds the tolerance is found.
-/

/-- Planned and remaining capital reconcile, and each amount lies within its cap. -/
structure Reconciles
    (available : Int)
    (allocations : List Allocation)
    (remaining tolerancePerCompany : Int) : Prop where
  drift_le :
    |available -
        ((allocations.map Allocation.planned).sum + remaining)| ≤
      max tolerancePerCompany 0 * allocations.length
  within_caps :
    ∀ allocation ∈ allocations,
      0 ≤ allocation.planned ∧ allocation.planned ≤ allocation.cap

/-- The report of an audit has the exact figures, cut to the range of amounts. -/
structure Discrepancy.Reports
    (available : Int)
    (allocations : List Allocation)
    (remaining tolerancePerCompany : Int)
    (discrepancy : Discrepancy) : Prop where
  expected_eq : discrepancy.expected = available
  actual_eq :
    discrepancy.actual =
      Amount.saturate
        ((allocations.map Allocation.planned).sum + remaining)
  drift_eq :
    discrepancy.drift =
      Amount.saturate
        |available -
          ((allocations.map Allocation.planned).sum + remaining)|
  tolerance_eq :
    discrepancy.tolerance =
      Amount.saturate
        (max tolerancePerCompany 0 * allocations.length)
  /-- The companies outside their caps, in the order of the allocations. -/
  outsideCap_eq :
    discrepancy.outsideCap =
      (allocations.filter fun allocation =>
          !decide
            (0 ≤ allocation.planned ∧
              allocation.planned ≤ allocation.cap)).map
        Allocation.companyId

section Verdict

variable
    {available remaining tolerancePerCompany : Int}
    {allocations others : List Allocation}

/-- The drift is the distance between what was there and what is accounted for. -/
theorem driftOf_eq_abs :
    driftOf available allocations remaining =
      |available -
        ((allocations.map Allocation.planned).sum + remaining)| := by
  rw [driftOf, Int.abs_eq_natAbs]

/-- An audit reports nothing exactly if the records reconcile. -/
theorem audit?_eq_none_iff_reconciles :
    audit? available allocations remaining tolerancePerCompany =
        none ↔
      Reconciles available allocations remaining
        tolerancePerCompany := by
  rw [audit?_eq_none_iff, driftOf_eq_abs, toleranceOf]
  exact
    ⟨fun ⟨drift, within⟩ => ⟨drift, within⟩,
      fun reconciles =>
        ⟨reconciles.drift_le, reconciles.within_caps⟩⟩

/-- A record is outside if it is below zero or above its cap. -/
theorem Allocation.isOutside_eq
    (allocation : Allocation) :
    allocation.isOutside =
      !decide
        (0 ≤ allocation.planned ∧
          allocation.planned ≤ allocation.cap) := by
  rw [isOutside, ← decide_not, decide_eq_decide]
  omega

/-- An audit that does not pass reports what is wrong. -/
theorem exists_audit?_eq_some
    (doesNotReconcile :
      ¬Reconciles available allocations remaining
        tolerancePerCompany) :
    ∃ discrepancy,
      audit? available allocations remaining tolerancePerCompany =
          some discrepancy ∧
        discrepancy.Reports available allocations remaining
          tolerancePerCompany := by
  rw [← audit?_eq_none_iff_reconciles] at doesNotReconcile
  simp only [audit?, audit] at doesNotReconcile ⊢
  split at doesNotReconcile
  · exact (doesNotReconcile rfl).elim
  · rename_i notPassed
    rw [if_neg notPassed]
    refine ⟨_, rfl, ?_⟩
    exact {
      expected_eq := rfl
      actual_eq := rfl
      drift_eq := congrArg Amount.saturate driftOf_eq_abs
      tolerance_eq := rfl
      outsideCap_eq := by
        simp only [← Allocation.isOutside_eq]
    }

/-- Whether records reconcile does not depend on their order. -/
theorem Reconciles.perm
    (reconciles :
      Reconciles available allocations remaining tolerancePerCompany)
    (sameAllocations : allocations.Perm others) :
    Reconciles available others remaining tolerancePerCompany where
  drift_le := by
    rw [← (sameAllocations.map Allocation.planned).sum_eq,
      ← sameAllocations.length_eq]
    exact reconciles.drift_le
  within_caps allocation member :=
    reconciles.within_caps allocation
      (sameAllocations.mem_iff.mpr member)

/-- Records that reconcile do so with more tolerance. -/
theorem Reconciles.mono
    {greaterTolerance : Int}
    (reconciles :
      Reconciles available allocations remaining tolerancePerCompany)
    (atLeast : tolerancePerCompany ≤ greaterTolerance) :
    Reconciles available allocations remaining greaterTolerance where
  drift_le :=
    reconciles.drift_le.trans
      (Int.mul_le_mul_of_nonneg_right (max_le_max_right 0 atLeast)
        (Int.natCast_nonneg allocations.length))
  within_caps := reconciles.within_caps

end Verdict

/-- An account that is exact no longer reconciles once an amount is changed beyond the tolerance. -/
theorem not_reconciles_of_changed
    {available remaining tolerancePerCompany amount : Int}
    {before after : List Allocation}
    {allocation : Allocation}
    (exactly :
      totalPlanned (before ++ allocation :: after) + remaining =
        available)
    (beyond :
      max tolerancePerCompany 0 *
          (before ++ allocation :: after).length <
        |amount - allocation.planned|) :
    ¬Reconciles available
      (before ++ { allocation with planned := amount } :: after)
      remaining tolerancePerCompany := by
  rintro ⟨drift, -⟩
  have sameLength :
      (before ++ { allocation with planned := amount } :: after).length =
        (before ++ allocation :: after).length := by
    simp only [List.length_append, List.length_cons]
  have changed :
      available -
          (((before ++
              { allocation with planned := amount } :: after).map
                Allocation.planned).sum + remaining) =
        allocation.planned - amount := by
    rw [← exactly, totalPlanned]
    simp only [List.map_append, List.map_cons, List.sum_append,
      List.sum_cons]
    omega
  rw [changed, sameLength, abs_sub_comm] at drift
  omega

namespace Strategy

variable
    {request : Request}
    (valid : request.validate = .ok ())
    {strategy : Strategy}

include valid

/-- A plan and what remains make up what was available. -/
theorem totalPlanned_add_remaining
    (strategy : Strategy) :
    totalPlanned (strategy.planValid request).allocations +
        (strategy.planValid request).remaining =
      request.available :=
  ((continues_finalLedger strategy request).sound.accountsFor_ofLedger
    (capital_finalLedger valid strategy) _ _).planned_add_remaining

/-- The audit finds a change of one planned amount beyond the tolerance. -/
theorem exists_audit?_of_changed
    {before after : List Allocation}
    {allocation : Allocation}
    (shape :
      (strategy.planValid request).allocations =
        before ++ allocation :: after)
    {amount tolerancePerCompany : Int}
    (beyond :
      max tolerancePerCompany 0 *
          (strategy.planValid request).allocations.length <
        |amount - allocation.planned|) :
    ∃ discrepancy,
      audit? request.available
          (before ++ { allocation with planned := amount } :: after)
          (strategy.planValid request).remaining
          tolerancePerCompany = some discrepancy := by
  have exactly := totalPlanned_add_remaining valid strategy
  rw [shape] at exactly beyond
  obtain ⟨discrepancy, found, -⟩ :=
    exists_audit?_eq_some (not_reconciles_of_changed exactly beyond)
  exact ⟨discrepancy, found⟩

end Strategy

/--
The audit passes exactly the allocations that reconcile, with nothing to report,
and reports the exact figures of all others, computed in words for any amounts. Its verdict does not
depend on the order of the allocations, and no greater tolerance turns it. In
the plan of a strategy it finds every change of one amount that exceeds the
tolerance.
-/
theorem audits_are_exact :
    (∀ (available : Int) (allocations : List Allocation)
        (remaining tolerancePerCompany : Int),
      ((audit available allocations remaining
              tolerancePerCompany).passed = true ↔
          Reconciles available allocations remaining
            tolerancePerCompany) ∧
        (audit? available allocations remaining tolerancePerCompany =
            none ↔
          (audit available allocations remaining
              tolerancePerCompany).passed = true) ∧
        (audit? available allocations remaining tolerancePerCompany =
            none ↔
          Reconciles available allocations remaining
            tolerancePerCompany) ∧
        (¬Reconciles available allocations remaining
            tolerancePerCompany →
          ∃ discrepancy,
            audit? available allocations remaining
                tolerancePerCompany = some discrepancy ∧
              discrepancy.Reports available allocations remaining
                tolerancePerCompany) ∧
        (Amount.InRange available →
          Amount.InRange remaining →
          Amount.InRange tolerancePerCompany →
          (∀ allocation ∈ allocations,
            Amount.InRange allocation.planned) →
          allocations.length < 2 ^ 63 →
          Checked.audit available allocations remaining
              tolerancePerCompany =
            some
              (audit? available allocations remaining
                tolerancePerCompany))) ∧
      (∀ (available : Int) (allocations others : List Allocation)
          (remaining tolerancePerCompany : Int),
        allocations.Perm others →
        (audit? available allocations remaining
              tolerancePerCompany = none ↔
          audit? available others remaining
              tolerancePerCompany = none)) ∧
      (∀ (available : Int) (allocations : List Allocation)
          (remaining tolerancePerCompany greaterTolerance : Int),
        tolerancePerCompany ≤ greaterTolerance →
        audit? available allocations remaining
            tolerancePerCompany = none →
        audit? available allocations remaining
            greaterTolerance = none) ∧
      ∀ request : Request,
        request.validate = .ok () →
        ∀ strategy : Strategy,
          ∃ plan,
            strategy.plan request = .ok plan ∧
              ∀ before allocation after,
                plan.allocations = before ++ allocation :: after →
                ∀ amount tolerancePerCompany : Int,
                  max tolerancePerCompany 0 *
                      plan.allocations.length <
                    |amount - allocation.planned| →
                  ∃ discrepancy,
                    audit? request.available
                        (before ++
                          { allocation with planned := amount } ::
                            after)
                        plan.remaining tolerancePerCompany =
                      some discrepancy := by
  refine ⟨?_, ?_, ?_, ?_⟩
  · intro available allocations remaining tolerancePerCompany
    have passes :
        (audit available allocations remaining
            tolerancePerCompany).passed = true ↔
          audit? available allocations remaining
            tolerancePerCompany = none := by
      rw [passed_audit_eq_isNone, Option.isNone_iff_eq_none]
    exact
      ⟨passes.trans audit?_eq_none_iff_reconciles, passes.symm,
        audit?_eq_none_iff_reconciles, exists_audit?_eq_some,
        Checked.audit_eq⟩
  · intro available allocations others remaining tolerancePerCompany
      sameAllocations
    rw [audit?_eq_none_iff_reconciles, audit?_eq_none_iff_reconciles]
    exact
      ⟨fun reconciles => reconciles.perm sameAllocations,
        fun reconciles => reconciles.perm sameAllocations.symm⟩
  · intro available allocations remaining tolerancePerCompany
      greaterTolerance atLeast passed
    rw [audit?_eq_none_iff_reconciles] at passed ⊢
    exact passed.mono atLeast
  · intro request valid strategy
    refine
      ⟨strategy.planValid request,
        Strategy.plan_of_valid valid strategy, ?_⟩
    intro before allocation after shape amount tolerancePerCompany
      beyond
    exact Strategy.exists_audit?_of_changed valid shape beyond

/-- Two allocations of the greatest amount, the second of them beyond its cap. -/
def overspent : List Allocation :=
  [⟨"a", Amount.greatest, Amount.greatest, .stageMultiple, 1, false⟩,
    ⟨"b", Amount.greatest, 5, .explicitCap, 1, false⟩]

/--
Sums that no amount can hold are audited in words, and in either order; a drift
of two passes for two allocations at a tolerance of one, and so at seven; in
the plan of three companies a change by four is found at a tolerance of one.
-/
theorem audits_are_exact_overspent :
    (∃ discrepancy,
      audit? 0 overspent Amount.greatest Amount.greatest =
          some discrepancy ∧
        discrepancy.Reports 0 overspent Amount.greatest
          Amount.greatest) ∧
      Checked.audit 0 overspent Amount.greatest Amount.greatest =
        some
          (audit? 0 overspent Amount.greatest Amount.greatest) ∧
      (audit? 0 overspent Amount.greatest Amount.greatest = none ↔
        audit? 0 overspent.reverse Amount.greatest
          Amount.greatest = none) ∧
      audit? 1000
          [⟨"a", 600, 600, .stageMultiple, 1, false⟩,
            ⟨"b", 298, 500, .capitalExhausted, 1, false⟩]
          100 7 = none ∧
      ∃ plan,
        Strategy.standard.plan Request.threeSeeds = .ok plan ∧
          ∃ first rest discrepancy,
            plan.allocations = first :: rest ∧
              audit? 900
                  ({ first with planned := 896 } :: rest)
                  plan.remaining 1 =
                some discrepancy := by
  obtain ⟨exactly, ordered, tolerant, detects⟩ := audits_are_exact
  obtain ⟨-, -, -, reports, inWords⟩ :=
    exactly 0 overspent Amount.greatest Amount.greatest
  have notReconciled :
      ¬Reconciles 0 overspent Amount.greatest Amount.greatest := by
    intro reconciles
    have outside :=
      (reconciles.within_caps
        ⟨"b", Amount.greatest, 5, .explicitCap, 1, false⟩
        (by decide)).2
    exact absurd outside (by decide)
  refine
    ⟨reports notReconciled,
      inWords (by decide) (by decide) (by decide) (by decide)
        (by decide),
      ordered _ _ _ _ _ (List.reverse_perm overspent).symm,
      tolerant _ _ _ 1 7 (by decide) (by decide), ?_⟩
  obtain ⟨plan, planned, found⟩ :=
    detects _ Request.validate_threeSeeds .standard
  obtain ⟨first, rest, shape, paid, count⟩ :
      ∃ first rest,
        plan.allocations = first :: rest ∧
          first.planned = 900 ∧ plan.allocations.length = 3 := by
    rw [← (Strategy.plan_eq_ok_iff.mp planned).2]
    simp only [Strategy.planValid, Plan.ofLedger, Strategy.standard,
      Strategy.finalLedger, Request.ledger, Request.accounts_eq_map,
      Request.ranked_threeSeeds]
    exact ⟨_, _, rfl, by decide, by decide⟩
  obtain ⟨discrepancy, isFound⟩ :=
    found [] first rest shape 896 1 (by rw [count, paid]; decide)
  exact ⟨plan, planned, first, rest, discrepancy, shape, isFound⟩

end FollowOn

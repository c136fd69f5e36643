import FollowOn.Proofs.Checks
import FollowOn.Proofs.Conservation
import FollowOn.Proofs.Lookup
import Mathlib.Algebra.Order.Field.Rat
import Mathlib.Data.List.ReduceOption
import Mathlib.Tactic.NormNum

namespace FollowOn

/-!
# Limits that a plan honours

A cap is at most each bound that applies to its company, and no bound of a
valid request is below zero. Rounding a product down and cutting it to the
range of amounts can only lower it. So what a plan reserves for a company stays
within the exact multiple of its invested capital, its own limit, the greatest
reserve of one company and the greatest share of the capital. The plan reports
every company once, in ranking order, each under its own cap.
-/

namespace Ratio

/-- The exact value of a ratio. -/
def toRat (ratio : Ratio) : ℚ :=
  ratio.micros / 1000000

/-- A product that is not below zero is never rounded or cut up. -/
theorem applyTo_mul_le
    {ratio : Ratio}
    {amount : Int}
    (notNegative : 0 ≤ amount * ratio.micros) :
    ratio.applyTo amount * 1000000 ≤ amount * ratio.micros := by
  have quotient : 0 ≤ amount * ratio.micros / scale :=
    Int.ediv_nonneg notNegative (by decide)
  have lowered : ratio.applyTo amount ≤ amount * ratio.micros / scale := by
    simp only [applyTo, Amount.saturate, Amount.least, Amount.greatest]
    omega
  calc
    ratio.applyTo amount * 1000000
        ≤ amount * ratio.micros / scale * scale :=
          Int.mul_le_mul_of_nonneg_right lowered (by decide)
    _ ≤ amount * ratio.micros := Int.ediv_mul_le _ (by decide)

/-- A product that is not below zero stays so when it is rounded. -/
theorem applyTo_nonneg
    {ratio : Ratio}
    {amount : Int}
    (notNegative : 0 ≤ amount * ratio.micros) :
    0 ≤ ratio.applyTo amount := by
  have quotient : 0 ≤ amount * ratio.micros / scale :=
    Int.ediv_nonneg notNegative (by decide)
  simp only [applyTo, Amount.saturate, Amount.least, Amount.greatest]
  omega

/-- Whole millionths compare as exact values do. -/
theorem le_mul_toRat
    {ratio : Ratio}
    {reserve amount : Int}
    (millionths : reserve * 1000000 ≤ amount * ratio.micros) :
    (reserve : ℚ) ≤ amount * ratio.toRat := by
  rw [toRat, ← mul_div_assoc, le_div_iff₀ (by norm_num)]
  exact_mod_cast millionths

end Ratio

/-- The policy of a stage among some policies, or none if no policy is of that stage. -/
inductive PolicyApplies
    (policies : List StagePolicy)
    (stage : String) :
    Option StagePolicy → Prop where
  | listed
      {policy : StagePolicy}
      (member : policy ∈ policies)
      (sameStage : policy.stage = stage) :
      PolicyApplies policies stage (some policy)
  | unlisted
      (otherStages : ∀ policy ∈ policies, policy.stage ≠ stage) :
      PolicyApplies policies stage none

/-- The policy that is looked up applies to the stage. -/
theorem policyApplies_policyFor?
    (policies : List StagePolicy)
    (stage : String) :
    PolicyApplies policies stage (policyFor? policies stage) := by
  cases found : policyFor? policies stage with
  | none => exact .unlisted (policyFor?_eq_none_iff.mp found)
  | some policy =>
      obtain ⟨member, sameStage⟩ := mem_and_stage_of_policyFor? found
      exact .listed member sameStage

section Cap

variable
    {company : Company}
    {policy : Option StagePolicy}
    {constraints : Constraints}
    {available : Int}

/-- A cap is at most each bound that is not below zero. -/
theorem evaluateCap_amount_le_bound
    {bound : Bound}
    (member :
      bound ∈
        optionalBounds company constraints available ++
          [stageBound company policy])
    (notNegative : 0 ≤ bound.amount) :
    (evaluateCap company policy constraints available).amount ≤
      bound.amount := by
  have least := tightest_le member
  simp only [evaluateCap]
  split
  · exact max_le notNegative notNegative
  · exact max_le notNegative least

/-- Without an investment the cap is zero. -/
theorem evaluateCap_amount_of_uninvested
    (uninvested : company.invested ≤ 0) :
    (evaluateCap company policy constraints available).amount = 0 := by
  simp only [evaluateCap, if_pos uninvested, max_self]

end Cap

/-- What a request lets a company receive whose stage has a policy or none. -/
structure Request.Allows
    (request : Request)
    (company : Company)
    (policy : Option StagePolicy)
    (reserve : Int) : Prop where
  nonneg : 0 ≤ reserve
  /-- The product is exact; without a policy the multiple is one. -/
  le_multiple :
    (reserve : ℚ) ≤ company.invested * (stageMultipleOf policy).toRat
  le_hardCap :
    ∀ limit, company.hardCap = some limit → reserve ≤ limit
  le_maxReserve :
    ∀ limit,
      request.constraints.maxReserve = some limit → reserve ≤ limit
  le_maxShare :
    ∀ share,
      request.constraints.maxShare = some share →
        reserve * 1000000 ≤ share.micros * request.available
  eq_zero_of_uninvested : company.invested = 0 → reserve = 0

/-- An allocation is that of a company, under the policy of its stage and within all limits. -/
structure Allocation.Honours
    (request : Request)
    (company : Company)
    (policy : Option StagePolicy)
    (allocation : Allocation) : Prop where
  applies : PolicyApplies request.policies company.stage policy
  companyId_eq : allocation.companyId = company.id
  cap_eq :
    allocation.cap =
      (evaluateCap company policy request.constraints
        request.available).amount
  policyDefaulted_eq :
    allocation.policyDefaulted =
      (evaluateCap company policy request.constraints
        request.available).policyDefaulted
  allowed : request.Allows company policy allocation.planned

/-- One company goes before another: at a greater multiple, or by a lesser id at the same one. -/
def Company.GoesBefore (left right : Company) : Prop :=
  right.exitMultiple.micros < left.exitMultiple.micros ∨
    (left.exitMultiple.micros = right.exitMultiple.micros ∧
      left.id < right.id)

/-- A plan reports the companies of a request once each, in an order, within all limits. -/
structure Plan.HonoursLimits
    (request : Request)
    (order : List Company)
    (plan : Plan) : Prop where
  order_perm : order.Perm request.companies
  order_pairwise : order.Pairwise Company.GoesBefore
  ranking_eq : plan.summary.ranking = order.map Company.id
  honoured :
    List.Forall₂
      (fun company allocation =>
        ∃ policy, allocation.Honours request company policy)
      order plan.allocations
  found :
    ∀ company ∈ request.companies,
      ∃ allocation,
        plan.allocationFor? company.id = some allocation ∧
          ∃ policy, allocation.Honours request company policy
  fundedCount_eq :
    plan.summary.fundedCount =
      (plan.allocations.filter fun allocation =>
        decide (0 < allocation.planned)).length

namespace Request

variable
    {request : Request}
    {company : Company}

/-- The multiple of a well-formed request that applies to a company is not below zero. -/
theorem WellFormed.stageMultiple_nonneg
    (wellFormed : request.WellFormed)
    {stage : String}
    {policy : Option StagePolicy}
    (applies : PolicyApplies request.policies stage policy) :
    0 ≤ (stageMultipleOf policy).micros := by
  cases applies with
  | listed member _ =>
      exact wellFormed.reserveMultiple_nonneg _ member
  | unlisted _ => decide

/-- What stays within a cap stays within everything that bounds the cap. -/
theorem WellFormed.allows_of_le_cap
    (wellFormed : request.WellFormed)
    (member : company ∈ request.companies)
    {policy : Option StagePolicy}
    (applies : PolicyApplies request.policies company.stage policy)
    {reserve : Int}
    (notNegative : 0 ≤ reserve)
    (withinCap :
      reserve ≤
        (evaluateCap company policy request.constraints
          request.available).amount) :
    request.Allows company policy reserve where
  nonneg := notNegative
  le_multiple := by
    have product :
        0 ≤ company.invested * (stageMultipleOf policy).micros :=
      Int.mul_nonneg (wellFormed.invested_nonneg company member)
        (wellFormed.stageMultiple_nonneg applies)
    have withinBound :=
      withinCap.trans
        (evaluateCap_amount_le_bound
          (List.mem_append_right _ (List.mem_singleton_self _))
          (Ratio.applyTo_nonneg product))
    apply Ratio.le_mul_toRat
    exact
      (Int.mul_le_mul_of_nonneg_right withinBound (by decide)).trans
        (Ratio.applyTo_mul_le product)
  le_hardCap := by
    intro limit isLimit
    have bounds :
        (⟨limit, .explicitCap⟩ : Bound) ∈
          optionalBounds company request.constraints
              request.available ++
            [stageBound company policy] := by
      simp [optionalBounds, List.reduceOption_mem_iff, isLimit]
    exact withinCap.trans
      (evaluateCap_amount_le_bound bounds
        (wellFormed.hardCap_nonneg company member limit isLimit))
  le_maxReserve := by
    intro limit isLimit
    have bounds :
        (⟨limit, .maxReserve⟩ : Bound) ∈
          optionalBounds company request.constraints
              request.available ++
            [stageBound company policy] := by
      simp [optionalBounds, List.reduceOption_mem_iff, isLimit]
    exact withinCap.trans
      (evaluateCap_amount_le_bound bounds
        (wellFormed.constraints.maxReserve_nonneg limit isLimit))
  le_maxShare := by
    intro share isShare
    have product : 0 ≤ request.available * share.micros :=
      Int.mul_nonneg wellFormed.available_nonneg
        (wellFormed.constraints.maxShare_bounds share isShare).1.le
    have bounds :
        (⟨share.applyTo request.available, .concentration⟩ : Bound) ∈
          optionalBounds company request.constraints
              request.available ++
            [stageBound company policy] := by
      simp [optionalBounds, List.reduceOption_mem_iff, isShare]
    have withinBound :=
      withinCap.trans
        (evaluateCap_amount_le_bound bounds
          (Ratio.applyTo_nonneg product))
    rw [Int.mul_comm share.micros]
    exact
      (Int.mul_le_mul_of_nonneg_right withinBound (by decide)).trans
        (Ratio.applyTo_mul_le product)
  eq_zero_of_uninvested := by
    intro uninvested
    rw [evaluateCap_amount_of_uninvested uninvested.le] at withinCap
    exact withinCap.antisymm notNegative

/-- A request with a bound of every kind. -/
def boundedSeeds : Request :=
  { threeSeeds with
    constraints :=
      { minReserve := some 50
        maxReserve := some 700
        horizonMonths := none
        maxShare := some ⟨600000⟩ } }

end Request

namespace Strategy

variable
    {request : Request}

/-- The allocation of a company honours its limits if it stays within its cap. -/
theorem honours_of_isOf
    (wellFormed : request.WellFormed)
    {company : Company}
    (member : company ∈ request.companies)
    {allocation : Allocation}
    (isOf : allocation.IsOf request company)
    (withinCap :
      0 ≤ allocation.planned ∧ allocation.planned ≤ allocation.cap) :
    ∃ policy, allocation.Honours request company policy := by
  have applies :=
    policyApplies_policyFor? request.policies company.stage
  have withinOwnCap := withinCap.2
  rw [isOf.cap_eq] at withinOwnCap
  exact ⟨policyFor? request.policies company.stage, {
    applies := applies
    companyId_eq := isOf.companyId_eq
    cap_eq := isOf.cap_eq
    policyDefaulted_eq := isOf.policyDefaulted_eq
    allowed :=
      wellFormed.allows_of_le_cap member applies withinCap.1
        withinOwnCap
  }⟩

/-- Record by record a plan honours the limits of its company. -/
theorem forall₂_honours
    (wellFormed : request.WellFormed)
    (strategy : Strategy) :
    List.Forall₂
      (fun company allocation =>
        ∃ policy, allocation.Honours request company policy)
      (ranked request.companies)
      (strategy.planValid request).allocations := by
  have withinCaps :=
    (continues_finalLedger strategy request).sound.allocations_within_caps
  have withCompanies :=
    (List.forall₂_and_left (ranked request.companies) _).mpr
      ⟨fun _ member => (ranked_perm request.companies).mem_iff.mp member,
        forall₂_isOf_allocations strategy request⟩
  have withBoth :=
    (List.forall₂_and_left
        (strategy.planValid request).allocations _).mpr
      ⟨withinCaps, withCompanies.flip⟩
  refine withBoth.flip.imp ?_
  rintro company allocation ⟨withinCap, member, isOf⟩
  exact honours_of_isOf wellFormed member isOf withinCap

/--
Every plan for a valid request reports each of its companies once, in ranking
order and under its own cap, and honours every limit on it.
-/
theorem plan_honours_limits
    (valid : request.validate = .ok ())
    (strategy : Strategy) :
    ∃ plan order,
      strategy.plan request = .ok plan ∧
        plan.HonoursLimits request order := by
  refine
    ⟨strategy.planValid request, ranked request.companies,
      plan_of_valid valid strategy, ?_⟩
  have wellFormed := Request.validate_eq_ok_iff_wellFormed.mp valid
  have honoured := forall₂_honours wellFormed strategy
  exact {
    order_perm := ranked_perm request.companies
    order_pairwise := by
      refine (ranked_pairwise wellFormed.ids_distinct).imp ?_
      intro left right ahead
      rw [Company.comparePriority_eq_lt_iff, eq_comm] at ahead
      exact ahead
    ranking_eq := rfl
    honoured := honoured
    found := by
      intro company member
      have isRanked : company ∈ ranked request.companies :=
        (ranked_perm request.companies).mem_iff.mpr member
      obtain ⟨allocation, inPlan, policy, honours⟩ :=
        exists_mem_left_of_forall₂ honoured.flip isRanked
      exact
        ⟨allocation,
          allocationFor?_of_mem valid inPlan honours.companyId_eq,
          policy, honours⟩
    fundedCount_eq := List.countP_eq_length_filter
  }

/-- Of three seed companies two are kept at the greatest share, and the third gets the rest. -/
theorem plan_honours_limits_boundedSeeds :
    Request.boundedSeeds.validate = .ok () ∧
      ∃ plan order,
        Strategy.standard.plan Request.boundedSeeds = .ok plan ∧
          plan.allocations.map Allocation.planned = [540, 100, 260] ∧
          plan.HonoursLimits Request.boundedSeeds order := by
  have valid : Request.boundedSeeds.validate = .ok () := rfl
  obtain ⟨plan, order, planned, honours⟩ :=
    plan_honours_limits valid .standard
  refine ⟨valid, plan, order, planned, ?_, honours⟩
  rw [← (plan_eq_ok_iff.mp planned).2]
  have inOrder :
      ranked Request.boundedSeeds.companies =
        Request.boundedSeeds.companies :=
    Request.ranked_threeSeeds
  simp only [planValid, Plan.ofLedger, standard, finalLedger,
    Request.ledger, Request.accounts_eq_map, inOrder]
  decide

end Strategy

end FollowOn

import FollowOn.Comparison
import FollowOn.Proofs.Lookup
import Mathlib.Algebra.Order.BigOperators.Group.List

namespace FollowOn

/-!
# What a comparison says

Each strategy reports every company of a valid request once, in one and the
same order. So looking up a company of the primary plan in the shadow plan
always finds it, the differences of the companies add up to that of the totals,
and exchanging the strategies turns every difference round. A request that is
turned down is turned down by both strategies alike.
-/

/-- The amounts that two plans hold for a company. -/
def Company.deltaBetween
    (primary shadow : Plan)
    (company : Company) :
    CompanyDelta where
  companyId := company.id
  primary := primary.plannedFor company.id
  shadow := shadow.plannedFor company.id
  delta :=
    shadow.plannedFor company.id - primary.plannedFor company.id

/-- The same amounts, seen from the shadow plan. -/
def CompanyDelta.swapped (company : CompanyDelta) : CompanyDelta where
  companyId := company.companyId
  primary := company.shadow
  shadow := company.primary
  delta := -company.delta

/-- The entry of a company holds what each of two plans reserves for it. -/
structure CompanyDelta.IsOf
    (request : Request)
    (primary shadow : Plan)
    (company : Company)
    (entry : CompanyDelta) : Prop where
  companyId_eq : entry.companyId = company.id
  primary_reserves :
    ∃ allocation,
      primary.Reserves request company allocation ∧
        entry.primary = allocation.planned
  shadow_reserves :
    ∃ allocation,
      shadow.Reserves request company allocation ∧
        entry.shadow = allocation.planned
  delta_eq : entry.delta = entry.shadow - entry.primary

namespace Comparison

/-- The same comparison with the strategies exchanged. -/
def swapped (comparison : Comparison) : Comparison where
  primaryName := comparison.shadowName
  shadowName := comparison.primaryName
  primary := comparison.shadow
  shadow := comparison.primary
  deltas := comparison.deltas.map CompanyDelta.swapped
  totalDelta := -comparison.totalDelta

/-- A comparison has one entry for each company, and its figures follow from them. -/
structure IsExact
    (request : Request)
    (comparison : Comparison) : Prop where
  primary_ranking :
    comparison.primary.summary.ranking = rankedIds request.companies
  shadow_ranking :
    comparison.shadow.summary.ranking = rankedIds request.companies
  deltas_isOf :
    List.Forall₂
      (CompanyDelta.IsOf request comparison.primary comparison.shadow)
      (ranked request.companies) comparison.deltas
  sum_deltas :
    (comparison.deltas.map CompanyDelta.delta).sum =
      comparison.totalDelta
  isIdentical_iff :
    comparison.isIdentical = true ↔ comparison.maxAbsDelta = 0
  maxAbsDelta_eq_zero_iff :
    comparison.maxAbsDelta = 0 ↔
      ∀ company ∈ request.companies,
        comparison.primary.plannedFor company.id =
          comparison.shadow.plannedFor company.id

/-- The greatest delta is zero exactly if all are. -/
theorem maxAbsDelta_eq_zero_iff_forall
    {comparison : Comparison} :
    comparison.maxAbsDelta = 0 ↔
      ∀ company ∈ comparison.deltas, company.delta = 0 := by
  rw [maxAbsDelta]
  induction comparison.deltas with
  | nil =>
      simp
  | cons first rest inductionHypothesis =>
      simp only [List.map_cons, List.foldr_cons, Nat.max_eq_zero_iff,
        Int.natAbs_eq_zero, inductionHypothesis, List.forall_mem_cons]

end Comparison

namespace Strategy

variable
    {request : Request}

/-- What a plan reserves, company by company in ranking order. -/
theorem map_planned_planValid
    (valid : request.validate = .ok ())
    (strategy : Strategy) :
    (strategy.planValid request).allocations.map Allocation.planned =
      (ranked request.companies).map fun company =>
        (strategy.planValid request).plannedFor company.id := by
  rw [← List.forall₂_eq_eq_eq, List.forall₂_map_left_iff,
    List.forall₂_map_right_iff]
  refine ((forall₂_reserves valid strategy).imp ?_).flip
  intro company allocation reserves
  exact reserves.plannedFor_eq.symm

end Strategy

section Valid

variable
    {request : Request}
    (valid : request.validate = .ok ())
    (primary shadow : Strategy)

include valid

/-- Deltas are listed in the order of the ranked companies. -/
theorem deltas_ofPlans
    (primaryName shadowName : String) :
    (Comparison.ofPlans primaryName shadowName
        (primary.planValid request) (shadow.planValid request)).deltas =
      (ranked request.companies).map
        (Company.deltaBetween (primary.planValid request)
          (shadow.planValid request)) := by
  rw [Comparison.ofPlans, ← List.forall₂_eq_eq_eq,
    List.forall₂_map_left_iff, List.forall₂_map_right_iff]
  refine ((Strategy.forall₂_reserves valid primary).imp ?_).flip
  intro company allocation reserves
  simp only [flip, Allocation.deltaTo, Company.deltaBetween,
    reserves.companyId_eq, reserves.plannedFor_eq]

/-- The differences of all companies add up to the difference of the totals. -/
theorem sum_delta_ofPlans
    (primaryName shadowName : String) :
    ((Comparison.ofPlans primaryName shadowName
        (primary.planValid request)
        (shadow.planValid request)).deltas.map
          CompanyDelta.delta).sum =
      (shadow.planValid request).allocated -
        (primary.planValid request).allocated := by
  have primaryTotal :
      (primary.planValid request).allocated =
        ((ranked request.companies).map fun company =>
          (primary.planValid request).plannedFor company.id).sum :=
    congrArg List.sum (Strategy.map_planned_planValid valid primary)
  have shadowTotal :
      (shadow.planValid request).allocated =
        ((ranked request.companies).map fun company =>
          (shadow.planValid request).plannedFor company.id).sum :=
    congrArg List.sum (Strategy.map_planned_planValid valid shadow)
  rw [deltas_ofPlans valid, List.map_map, primaryTotal, shadowTotal,
    eq_sub_iff_add_eq, ← List.sum_map_add]
  apply congrArg List.sum
  apply List.map_congr_left
  intro company _
  exact Int.sub_add_cancel _ _

/-- The delta of a company is that of its two records. -/
theorem isOf_deltaBetween
    {company : Company}
    (member : company ∈ request.companies) :
    CompanyDelta.IsOf request (primary.planValid request)
      (shadow.planValid request) company
      (company.deltaBetween (primary.planValid request)
        (shadow.planValid request)) where
  companyId_eq := rfl
  primary_reserves := by
    obtain ⟨allocation, -, reserves⟩ :=
      Strategy.exists_reserves valid primary member
    exact ⟨allocation, reserves, reserves.plannedFor_eq⟩
  shadow_reserves := by
    obtain ⟨allocation, -, reserves⟩ :=
      Strategy.exists_reserves valid shadow member
    exact ⟨allocation, reserves, reserves.plannedFor_eq⟩
  delta_eq := rfl

/-- Two plans have no difference exactly if they plan the same for every company. -/
theorem forall_delta_eq_zero_iff
    (primaryName shadowName : String) :
    (∀ entry ∈
        (Comparison.ofPlans primaryName shadowName
          (primary.planValid request)
          (shadow.planValid request)).deltas,
        entry.delta = 0) ↔
      ∀ company ∈ request.companies,
        (primary.planValid request).plannedFor company.id =
          (shadow.planValid request).plannedFor company.id := by
  rw [deltas_ofPlans valid, List.forall_mem_map]
  apply forall_congr'
  intro company
  rw [(ranked_perm request.companies).mem_iff, Company.deltaBetween,
    Int.sub_eq_zero, eq_comm]

/-- A comparison of two plans is exact. -/
theorem isExact_ofPlans :
    (Comparison.ofPlans primary.name shadow.name
      (primary.planValid request)
      (shadow.planValid request)).IsExact request where
  primary_ranking := rfl
  shadow_ranking := rfl
  deltas_isOf := by
    rw [deltas_ofPlans valid, List.forall₂_map_right_iff,
      List.forall₂_same]
    intro company member
    exact isOf_deltaBetween valid primary shadow
      ((ranked_perm request.companies).mem_iff.mp member)
  sum_deltas := sum_delta_ofPlans valid primary shadow _ _
  isIdentical_iff := by
    have total :=
      sum_delta_ofPlans valid primary shadow primary.name shadow.name
    rw [Comparison.maxAbsDelta_eq_zero_iff_forall,
      Comparison.isIdentical, Bool.and_eq_true, List.all_eq_true]
    simp only [beq_iff_eq]
    constructor
    · exact And.right
    · intro noDelta
      refine ⟨total.symm.trans (List.sum_eq_zero ?_), noDelta⟩
      exact List.forall_mem_map.mpr noDelta
  maxAbsDelta_eq_zero_iff :=
    Comparison.maxAbsDelta_eq_zero_iff_forall.trans
      (forall_delta_eq_zero_iff valid primary shadow _ _)

/-- Exchanging the plans negates the comparison. -/
theorem ofPlans_swapped :
    (Comparison.ofPlans primary.name shadow.name
        (primary.planValid request)
        (shadow.planValid request)).swapped =
      Comparison.ofPlans shadow.name primary.name
        (shadow.planValid request) (primary.planValid request) := by
  have swappedDeltas :
      ((ranked request.companies).map
          (Company.deltaBetween (primary.planValid request)
            (shadow.planValid request))).map CompanyDelta.swapped =
        (ranked request.companies).map
          (Company.deltaBetween (shadow.planValid request)
            (primary.planValid request)) := by
    rw [List.map_map]
    apply List.map_congr_left
    intro company _
    simp [CompanyDelta.swapped, Company.deltaBetween]
  rw [Comparison.swapped, deltas_ofPlans valid, swappedDeltas,
    ← deltas_ofPlans valid shadow primary shadow.name primary.name]
  simp [Comparison.ofPlans]

end Valid

/-- Exchanging the strategies turns a comparison round, whatever the request. -/
theorem compareStrategies_swapped
    (primary shadow : Strategy)
    (request : Request) :
    compareStrategies shadow primary request =
      (compareStrategies primary shadow request).map
        Comparison.swapped := by
  cases checked : request.validate with
  | error fault =>
      rw [compareStrategies_eq_error_iff.mpr checked,
        compareStrategies_eq_error_iff.mpr checked]
      rfl
  | ok =>
      rw [compareStrategies_eq_ok checked,
        compareStrategies_eq_ok checked]
      exact congrArg Except.ok
        (ofPlans_swapped checked primary shadow).symm

/--
Two strategies can be compared exactly on the valid requests, and what their
comparison says is exact: one difference for each company, all of them adding
up to that of the totals. Exchanged, the strategies give the same comparison
turned round, and a strategy does not differ from itself.
-/
theorem comparisons_are_exact
    (primary shadow : Strategy)
    (request : Request) :
    (∀ fault,
      compareStrategies primary shadow request = .error fault ↔
        request.validate = .error fault) ∧
      (request.validate = .ok () →
        ∃ comparison,
          compareStrategies primary shadow request =
              .ok comparison ∧
            primary.plan request = .ok comparison.primary ∧
            shadow.plan request = .ok comparison.shadow ∧
            comparison.IsExact request) ∧
      compareStrategies shadow primary request =
        (compareStrategies primary shadow request).map
          Comparison.swapped ∧
      (request.validate = .ok () →
        ∃ comparison,
          compareStrategies primary primary request =
              .ok comparison ∧
            comparison.isIdentical = true) := by
  refine
    ⟨fun _ => compareStrategies_eq_error_iff, ?_,
      compareStrategies_swapped primary shadow request, ?_⟩
  · intro valid
    exact
      ⟨_, compareStrategies_eq_ok valid primary shadow,
        Strategy.plan_of_valid valid primary,
        Strategy.plan_of_valid valid shadow,
        isExact_ofPlans valid primary shadow⟩
  · intro valid
    have sameStrategy := isExact_ofPlans valid primary primary
    refine ⟨_, compareStrategies_eq_ok valid primary primary, ?_⟩
    rw [sameStrategy.isIdentical_iff, sameStrategy.maxAbsDelta_eq_zero_iff]
    intro company _
    rfl

/--
Of what the first of three seed companies gets greedily, the third one gets a
part in proportion.
-/
theorem comparisons_are_exact_threeSeeds :
    ∃ comparison,
      compareStrategies .standard (.proRata .standard)
          Request.threeSeeds = .ok comparison ∧
        comparison.deltas.map CompanyDelta.delta = [-400, 0, 400] ∧
        comparison.IsExact Request.threeSeeds ∧
        compareStrategies (.proRata .standard) .standard
            Request.threeSeeds = .ok comparison.swapped := by
  obtain ⟨-, compared, exchanged, -⟩ :=
    comparisons_are_exact .standard (.proRata .standard)
      Request.threeSeeds
  obtain ⟨comparison, isCompared, -, -, isExact⟩ :=
    compared Request.validate_threeSeeds
  rw [isCompared] at exchanged
  refine ⟨comparison, isCompared, ?_, isExact, exchanged⟩
  rw [compareStrategies_eq_ok Request.validate_threeSeeds,
    Except.ok.injEq] at isCompared
  rw [← isCompared, deltas_ofPlans Request.validate_threeSeeds,
    Request.ranked_threeSeeds]
  simp only [Strategy.planValid, Plan.ofLedger, Strategy.standard,
    Strategy.finalLedger, Request.ledger, Request.accounts_eq_map,
    Request.weights_eq_map, Request.ranked_threeSeeds]
  decide

end FollowOn

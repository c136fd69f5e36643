import FollowOn.Comparison
import FollowOn.Proofs.Checked.Strategy
import FollowOn.Proofs.Conservation

namespace FollowOn

/-!
# Plans and comparisons stay in machine words

A plan of stored numbers, with its caps, its passes, its totals and its audit,
is computed in checked steps to the same end as with numbers of any size, and
so is the comparison of two plans. Caps may each be the greatest amount, and
their sum none: nothing adds caps up, and what is granted is bounded by the
capital. The audit works in words of 128 bits.
-/

/-- The tolerance of settings fits where it is stored. -/
def Settings.IsStored (settings : Settings) : Prop :=
  Amount.InRange settings.tolerancePerCompany

/-- The amounts of a plan are amounts of money, and not below zero. -/
structure Plan.IsStored (plan : Plan) : Prop where
  planned_bounds :
    ∀ allocation ∈ plan.allocations,
      0 ≤ allocation.planned ∧
        allocation.planned ≤ Amount.greatest
  allocated_bounds :
    0 ≤ plan.allocated ∧ plan.allocated ≤ Amount.greatest

namespace Checked

/-- Capital granted so far. -/
def allocatedTotal (ledger : Ledger) : Option Int :=
  sum? amount? (ledger.accounts.map Account.granted)

/-- The discrepancy that the audit finds, if it finds one. -/
def audit
    (available : Int)
    (allocations : List Allocation)
    (remaining tolerancePerCompany : Int) :
    Option (Option Discrepancy) := do
  let planned ← sum? wide? (allocations.map Allocation.planned)
  let actual ← wide? (planned + remaining)
  let difference ← wide? (available - actual)
  let drift ← wide? difference.natAbs
  let count ← wide? allocations.length
  let tolerance ← wide? (max tolerancePerCompany 0 * count)
  let outside := allocations.filter Allocation.isOutside
  some
    (if drift ≤ tolerance ∧ outside = [] then
      none
    else
      some
        { expected := available
          actual := Amount.saturate actual
          drift := Amount.saturate drift
          tolerance := Amount.saturate tolerance
          outsideCap := outside.map Allocation.companyId })

/-- The plan that a finished ledger gives for a request. -/
def planOf
    (request : Request)
    (ranking : List String)
    (tolerancePerCompany : Int)
    (ledger : Ledger) :
    Option Plan := do
  let allocations := ledger.allocations
  let allocated ←
    sum? amount? (allocations.map Allocation.planned)
  let fundedCount ←
    word? 64
      (allocations.countP fun allocation =>
        decide (0 < allocation.planned))
  let discrepancy ←
    audit request.available allocations ledger.pool
      tolerancePerCompany
  some
    { allocations := allocations
      allocated := allocated
      remaining := ledger.pool
      summary :=
        { available := request.available
          allocated := allocated
          fundedCount := fundedCount
          ranking := ranking
          conserved := discrepancy.isNone
          passes := ledger.passes
          horizonMonths := request.constraints.horizonMonths
          discrepancy := discrepancy } }

/-- The plan of a strategy for a request, or why there is none. -/
def plan
    (strategy : Strategy)
    (request : Request) :
    Option (Except RequestFault Plan) :=
  match request.validate with
  | .error fault => some (.error fault)
  | .ok () => do
      let entries ← rankedCaps request
      let last ← finalLedger strategy entries request
      let plan ←
        planOf request (entries.map fun (company, _) => company.id)
          strategy.settings.tolerancePerCompany last
      some (.ok plan)

/-- The amounts of one allocation and of the same company in another plan. -/
def deltaTo
    (shadow : Plan)
    (allocation : Allocation) :
    Option CompanyDelta := do
  let delta ←
    amount?
      (shadow.plannedFor allocation.companyId - allocation.planned)
  some
    { companyId := allocation.companyId
      primary := allocation.planned
      shadow := shadow.plannedFor allocation.companyId
      delta := delta }

/-- Two plans side by side. -/
def comparisonOf
    (primaryName shadowName : String)
    (primary shadow : Plan) :
    Option Comparison := do
  let deltas ← primary.allocations.mapM (deltaTo shadow)
  let totalDelta ← amount? (shadow.allocated - primary.allocated)
  some
    { primaryName := primaryName
      shadowName := shadowName
      primary := primary
      shadow := shadow
      deltas := deltas
      totalDelta := totalDelta }

/-- Two strategies plan the same request, and their plans are compared. -/
def compareStrategies
    (primary shadow : Strategy)
    (request : Request) :
    Option (Except RequestFault Comparison) := do
  let primaryPlan ← plan primary request
  let shadowPlan ← plan shadow request
  match primaryPlan, shadowPlan with
  | .error fault, _ => some (.error fault)
  | .ok _, .error fault => some (.error fault)
  | .ok primaryPlan, .ok shadowPlan => do
      let comparison ←
        comparisonOf primary.name shadow.name primaryPlan shadowPlan
      some (.ok comparison)

section Audit

variable
    {available remaining tolerancePerCompany : Int}
    {allocations : List Allocation}

/-- A tolerance is the product of two signed words of 64 bits. -/
theorem wide?_toleranceOf
    (toleranceInRange : Amount.InRange tolerancePerCompany)
    (few : allocations.length < 2 ^ 63) :
    wide? (max tolerancePerCompany 0 * allocations.length) =
      some (toleranceOf allocations tolerancePerCompany) := by
  have perCompany : Amount.InRange (max tolerancePerCompany 0) :=
    inRange_of_bounds (Int.le_max_right tolerancePerCompany 0)
      (Int.max_le.mpr ⟨toleranceInRange.2, by decide⟩)
  have count : Amount.InRange allocations.length := by
    simp only [Amount.InRange, Amount.least, Amount.greatest]
    omega
  have bounds := mul_bounds perCompany count
  exact wide?_of_bounds (by omega) (by omega)

/-- Allocations of any amounts are audited within the words. -/
theorem audit_eq
    (availableInRange : Amount.InRange available)
    (remainingInRange : Amount.InRange remaining)
    (toleranceInRange : Amount.InRange tolerancePerCompany)
    (plannedInRange :
      ∀ allocation ∈ allocations, Amount.InRange allocation.planned)
    (few : allocations.length < 2 ^ 63) :
    audit available allocations remaining tolerancePerCompany =
      some
        (audit? available allocations remaining
          tolerancePerCompany) := by
  have eachInRange :
      ∀ planned ∈ allocations.map Allocation.planned,
        Amount.InRange planned :=
    List.forall_mem_map.mpr plannedInRange
  have fewPlanned :
      (allocations.map Allocation.planned).length < 2 ^ 63 := by
    rwa [List.length_map]
  have planned :
      sum? wide? (allocations.map Allocation.planned) =
        some (totalPlanned allocations) :=
    sum?_wide? eachInRange fewPlanned
  have bounds :
      -2 ^ 126 ≤ totalPlanned allocations ∧
        totalPlanned allocations < 2 ^ 126 :=
    sum_bounds_of_inRange eachInRange fewPlanned
  have tolerance := wide?_toleranceOf toleranceInRange few
  simp only [Amount.InRange, Amount.least, Amount.greatest]
    at availableInRange remainingInRange
  have actual :
      wide? (totalPlanned allocations + remaining) =
        some (totalPlanned allocations + remaining) :=
    wide?_of_bounds (by omega) (by omega)
  have difference :
      wide? (available - (totalPlanned allocations + remaining)) =
        some (available - (totalPlanned allocations + remaining)) :=
    wide?_of_bounds (by omega) (by omega)
  have drift :
      wide?
          (available -
            (totalPlanned allocations + remaining)).natAbs =
        some (driftOf available allocations remaining) := by
    rw [driftOf, ← totalPlanned]
    exact wide?_of_bounds (by omega) (by omega)
  have count :
      wide? allocations.length = some (allocations.length : Int) :=
    wide?_of_bounds (by omega) (by omega)
  rw [audit, planned]
  simp only [Option.bind_eq_bind]
  rw [Option.bind_some, actual, Option.bind_some, difference,
    Option.bind_some, drift, Option.bind_some, count,
    Option.bind_some, tolerance, Option.bind_some, audit?,
    FollowOn.audit, apply_ite AuditOutcome.discrepancy]
  rfl

end Audit

section Ledger

variable
    {ledger : Ledger}
    (stored : ledger.IsStored)

include stored

/-- What is granted altogether is added up within the words. -/
theorem allocatedTotal_eq :
    allocatedTotal ledger = some ledger.allocatedTotal :=
  sum?_amount? stored.granted_nonneg_of_mem
    stored.allocatedTotal_le

omit stored in
/-- The planned amounts are what the accounts were granted. -/
theorem map_planned_allocations
    (ledger : Ledger) :
    ledger.allocations.map Allocation.planned =
      ledger.accounts.map Account.granted := by
  rw [Ledger.allocations, List.map_map]
  rfl

/-- Planned amounts of a stored ledger are amounts from zero up. -/
theorem planned_bounds_allocations :
    ∀ allocation ∈ ledger.allocations,
      0 ≤ allocation.planned ∧
        allocation.planned ≤ Amount.greatest := by
  intro allocation member
  obtain ⟨account, inLedger, same⟩ := List.mem_map.mp member
  have accountSound := stored.accounts_sound account inLedger
  rw [← same]
  exact
    ⟨accountSound.granted_nonneg,
      Int.le_trans accountSound.granted_le_cap
        (stored.caps_le account inLedger)⟩

/-- A plan is made of a stored ledger without leaving the words. -/
theorem planOf_eq
    {request : Request}
    {tolerancePerCompany : Int}
    (availableInRange : Amount.InRange request.available)
    (toleranceInRange : Amount.InRange tolerancePerCompany)
    (ranking : List String) :
    planOf request ranking tolerancePerCompany ledger =
      some
        (Plan.ofLedger request ranking tolerancePerCompany
          ledger) := by
  have planned := map_planned_allocations ledger
  have few : ledger.allocations.length < 2 ^ 63 := by
    rw [Ledger.allocations, List.length_map]
    exact stored.length_lt
  have allocated :
      sum? amount? (ledger.allocations.map Allocation.planned) =
        some (totalPlanned ledger.allocations) := by
    rw [planned, Ledger.totalPlanned_allocations]
    exact allocatedTotal_eq stored
  have funded :
      word? 64
          (ledger.allocations.countP fun allocation =>
            decide (0 < allocation.planned)) =
        some _ :=
    word?_of_lt
      (Nat.lt_of_le_of_lt List.countP_le_length
        (Nat.lt_trans few (by decide)))
  have audited :
      audit request.available ledger.allocations ledger.pool
          tolerancePerCompany =
        _ :=
    audit_eq availableInRange
      (inRange_of_bounds stored.pool_nonneg stored.pool_le)
      toleranceInRange
      (fun allocation member =>
        have bounds :=
          planned_bounds_allocations stored allocation member
        inRange_of_bounds bounds.1 bounds.2)
      few
  simp only [planOf, allocated, funded, audited,
    Option.bind_eq_bind, Option.bind_some, ← passed_audit_eq_isNone]
  rfl

/-- The plan of a stored ledger is stored. -/
theorem isStored_ofLedger
    (request : Request)
    (ranking : List String)
    (tolerancePerCompany : Int) :
    (Plan.ofLedger request ranking tolerancePerCompany
      ledger).IsStored where
  planned_bounds := planned_bounds_allocations stored
  allocated_bounds := by
    have allocated :
        (Plan.ofLedger request ranking tolerancePerCompany
          ledger).allocated = ledger.allocatedTotal :=
      ledger.totalPlanned_allocations
    rw [allocated]
    exact ⟨stored.allocatedTotal_nonneg, stored.allocatedTotal_le⟩

end Ledger

section Plans

variable
    {request : Request}
    (stored : request.IsStored)
    {strategy : Strategy}
    (settingsStored : strategy.settings.IsStored)

include stored

/-- The plan of a stored, valid request fits in its words. -/
theorem isStored_planValid
    (strategy : Strategy) :
    (strategy.planValid request).IsStored :=
  isStored_ofLedger (isStored_finalLedger stored strategy) request _ _

include settingsStored

/-- A strategy plans without leaving the words. -/
theorem plan_eq :
    plan strategy request = some (strategy.plan request) := by
  have ids :
      (entriesOf request).map (fun (company, _) => company.id) =
        rankedIds request.companies := by
    rw [entriesOf, List.map_map]
    rfl
  have planned :
      planOf request (rankedIds request.companies)
          strategy.settings.tolerancePerCompany
          (strategy.finalLedger request) =
        _ :=
    planOf_eq (isStored_finalLedger stored strategy)
      stored.available_inRange settingsStored _
  rw [plan, Strategy.plan]
  cases request.validate with
  | error fault =>
      rfl
  | ok checked =>
      simp only [rankedCaps_eq stored,
        finalLedger_eq stored strategy, ids, planned,
        Option.bind_eq_bind, Option.bind_some]
      rfl

end Plans

section Comparison

variable
    {primary shadow : Plan}
    (primaryStored : primary.IsStored)
    (shadowStored : shadow.IsStored)

/-- The difference of two amounts not below zero is an amount. -/
theorem amount?_sub
    {left right : Int}
    (leftBounds : 0 ≤ left ∧ left ≤ Amount.greatest)
    (rightBounds : 0 ≤ right ∧ right ≤ Amount.greatest) :
    amount? (left - right) = some (left - right) := by
  apply amount?_of_inRange
  simp only [Amount.InRange, Amount.least, Amount.greatest] at *
  omega

include shadowStored

/-- A look-up in a stored plan gives an amount from zero up, also for an unknown company. -/
theorem plannedFor_bounds
    (companyId : String) :
    0 ≤ shadow.plannedFor companyId ∧
      shadow.plannedFor companyId ≤ Amount.greatest := by
  unfold Plan.plannedFor
  cases found : shadow.allocationFor? companyId with
  | none =>
      exact ⟨Int.le_refl 0, by decide⟩
  | some allocation =>
      exact
        shadowStored.planned_bounds allocation
          (List.mem_of_find?_eq_some found)

include primaryStored

/-- Stored plans are compared without leaving the words. -/
theorem comparisonOf_eq
    (primaryName shadowName : String) :
    comparisonOf primaryName shadowName primary shadow =
      some
        (Comparison.ofPlans primaryName shadowName
          primary shadow) := by
  have deltas :
      primary.allocations.mapM (deltaTo shadow) =
        some
          (primary.allocations.map (Allocation.deltaTo shadow)) := by
    apply mapM_eq_some_map
    intro allocation member
    rw [deltaTo,
      amount?_sub (plannedFor_bounds shadowStored allocation.companyId)
        (primaryStored.planned_bounds allocation member)]
    rfl
  have totalDelta :=
    amount?_sub shadowStored.allocated_bounds
      primaryStored.allocated_bounds
  simp only [comparisonOf, deltas, totalDelta, Option.bind_eq_bind,
    Option.bind_some]
  rfl

end Comparison

/-- Strategies are compared without leaving the words. -/
theorem compareStrategies_eq
    {request : Request}
    (stored : request.IsStored)
    {primary shadow : Strategy}
    (primaryStored : primary.settings.IsStored)
    (shadowStored : shadow.settings.IsStored) :
    compareStrategies primary shadow request =
      some (FollowOn.compareStrategies primary shadow request) := by
  rw [compareStrategies, plan_eq stored primaryStored,
    plan_eq stored shadowStored, FollowOn.compareStrategies]
  simp only [Option.bind_eq_bind, Option.bind_some]
  unfold Strategy.plan
  cases request.validate with
  | error fault =>
      rfl
  | ok checked =>
      have compared :
          comparisonOf primary.name shadow.name
              (primary.planValid request) (shadow.planValid request) =
            _ :=
        comparisonOf_eq (isStored_planValid stored primary)
          (isStored_planValid stored shadow) _ _
      simp only [Except.map, compared, Option.bind_some]
      rfl

/--
No step of a plan fails. Each strategy, whatever its settings, plans a request
of stored numbers in checked steps, with the result that it has in numbers of
any size; so do two strategies that are compared, and what the accounts of a
ledger hold altogether can be added up after any commands. Caps are bounded
one by one; nothing is supposed of their sum.
-/
theorem plans_stay_in_words
    {request : Request}
    (stored : request.IsStored)
    {primary shadow : Strategy}
    (primaryStored : primary.settings.IsStored)
    (shadowStored : shadow.settings.IsStored)
    (commands : List LedgerCommand) :
    plan primary request = some (primary.plan request) ∧
      compareStrategies primary shadow request =
        some (FollowOn.compareStrategies primary shadow request) ∧
      allocatedTotal
          ((primary.openingLedger request).performAll commands) =
        some
          ((primary.openingLedger request).performAll
            commands).allocatedTotal := by
  have openingStored := isStored_openingLedger stored primary
  exact
    ⟨plan_eq stored primaryStored,
      compareStrategies_eq stored primaryStored shadowStored,
      allocatedTotal_eq (openingStored.performAll commands)⟩

end Checked

/--
A request in which each of two companies could take the greatest amount, with
the greatest weight.
-/
def Request.twoGreatest : Request where
  companies :=
    [⟨"a", "Alpha", "seed", Amount.greatest, ⟨5000000⟩, none⟩,
      ⟨"b", "Beta", "seed", Amount.greatest, ⟨4000000⟩, none⟩]
  available := Amount.greatest
  policies := [⟨"seed", Ratio.one, ⟨Amount.greatest⟩⟩]
  constraints := Constraints.none

/-- Two companies of the greatest amounts still form a stored request. -/
theorem Request.isStored_twoGreatest :
    Request.twoGreatest.IsStored where
  available_inRange := by decide
  companies_stored := by
    intro company member
    simp only [twoGreatest, List.mem_cons, List.not_mem_nil,
      or_false] at member
    rcases member with rfl | rfl <;>
      exact ⟨by decide, by simp⟩
  policies_stored := by
    intro policy member
    rw [List.mem_singleton.mp member]
    exact ⟨by decide, by decide⟩
  constraints_stored :=
    ⟨by simp [twoGreatest, Constraints.none],
      by simp [twoGreatest, Constraints.none],
      by simp [twoGreatest, Constraints.none]⟩
  length_companies_lt := by decide

namespace Checked

/-- Plans are made and compared though the caps together exceed any amount. -/
theorem twoGreatest_stays_in_words :
    Request.twoGreatest.validate = .ok () ∧
      Amount.greatest <
        (Request.twoGreatest.companies.map fun company =>
          (Request.twoGreatest.capOf company).amount).sum ∧
      plan (.constrained Settings.standard) Request.twoGreatest =
        some
          ((Strategy.constrained Settings.standard).plan
            Request.twoGreatest) ∧
      compareStrategies (.constrained Settings.standard)
          (.proRata Settings.standard) Request.twoGreatest =
        some
          (FollowOn.compareStrategies
            (.constrained Settings.standard)
            (.proRata Settings.standard) Request.twoGreatest) := by
  have toleranceInRange : Amount.InRange 1 := by decide
  have constrainedStored :
      (Strategy.constrained Settings.standard).settings.IsStored :=
    toleranceInRange
  have proRataStored :
      (Strategy.proRata Settings.standard).settings.IsStored :=
    toleranceInRange
  obtain ⟨planned, compared, -⟩ :=
    plans_stay_in_words Request.isStored_twoGreatest
      constrainedStored proRataStored []
  exact ⟨rfl, by decide, planned, compared⟩

end Checked

end FollowOn

import FollowOn.Proofs.FinalLedger

namespace FollowOn

/-!
# Plans conserve capital

What a plan reserves and what it leaves add up to the available capital,
exactly, and every reserve stays within its cap. The passes of a ledger move
capital without making or losing any, so this holds of the ledger that a
strategy ends with, and the audit, which adds everything up again, has nothing
to find at any tolerance.
-/

/-- A plan accounts for all of the available capital, within all caps. -/
structure Plan.AccountsFor
    (available : Int)
    (plan : Plan) : Prop where
  planned_add_remaining :
    totalPlanned plan.allocations + plan.remaining = available
  remaining_nonneg : 0 ≤ plan.remaining
  allocated_eq : plan.allocated = totalPlanned plan.allocations
  summary_allocated_eq :
    plan.summary.allocated = totalPlanned plan.allocations
  within_caps :
    ∀ allocation ∈ plan.allocations,
      0 ≤ allocation.planned ∧
        allocation.planned ≤ allocation.cap
  /-- The audit passes whatever drift it tolerates. -/
  audit_eq_none :
    ∀ tolerancePerCompany,
      audit? available plan.allocations plan.remaining
        tolerancePerCompany = none
  conserved : plan.summary.conserved = true
  discrepancy_eq_none : plan.summary.discrepancy = none

/-- An exact account within all caps passes the audit at any tolerance. -/
theorem audit?_eq_none_of_exact
    {available remaining : Int}
    {allocations : List Allocation}
    (exactly : totalPlanned allocations + remaining = available)
    (withinCaps :
      ∀ allocation ∈ allocations,
        0 ≤ allocation.planned ∧
          allocation.planned ≤ allocation.cap)
    (tolerancePerCompany : Int) :
    audit? available allocations remaining tolerancePerCompany =
      none := by
  rw [audit?_eq_none_iff]
  refine ⟨?_, withinCaps⟩
  have noDrift : driftOf available allocations remaining = 0 := by
    rw [driftOf, ← exactly, totalPlanned, Int.sub_self]
    rfl
  rw [noDrift]
  exact Int.mul_nonneg (Int.le_max_right tolerancePerCompany 0)
    (Int.natCast_nonneg allocations.length)

namespace Ledger

/-- A plan adds up to what the ledger has granted. -/
theorem totalPlanned_allocations
    (ledger : Ledger) :
    totalPlanned ledger.allocations = ledger.allocatedTotal := by
  rw [totalPlanned, allocations, List.map_map, allocatedTotal]
  rfl

/-- A sound ledger plans no more than the caps. -/
theorem Sound.allocations_within_caps
    {ledger : Ledger}
    (sound : ledger.Sound) :
    ∀ allocation ∈ ledger.allocations,
      0 ≤ allocation.planned ∧
        allocation.planned ≤ allocation.cap := by
  intro allocation member
  obtain ⟨account, inLedger, same⟩ := List.mem_map.mp member
  have accountSound := sound.accounts_sound account inLedger
  rw [← same]
  exact ⟨accountSound.granted_nonneg, accountSound.granted_le_cap⟩

/-- The plan of a sound ledger accounts for the capital of the ledger. -/
theorem Sound.accountsFor_ofLedger
    {ledger : Ledger}
    (sound : ledger.Sound)
    {request : Request}
    (capital : ledger.capital = request.available)
    (ranking : List String)
    (tolerancePerCompany : Int) :
    (Plan.ofLedger request ranking tolerancePerCompany
      ledger).AccountsFor request.available := by
  have exactly :
      totalPlanned ledger.allocations + ledger.pool =
        request.available := by
    rw [totalPlanned_allocations, ← capital, Ledger.capital]
    exact Int.add_comm _ _
  have audited :=
    audit?_eq_none_of_exact exactly sound.allocations_within_caps
  exact {
    planned_add_remaining := exactly
    remaining_nonneg := sound.pool_nonneg
    allocated_eq := rfl
    summary_allocated_eq := rfl
    within_caps := sound.allocations_within_caps
    audit_eq_none := audited
    conserved := by
      simp only [Plan.ofLedger, passed_audit_eq_isNone,
        audited tolerancePerCompany]
      rfl
    discrepancy_eq_none := audited tolerancePerCompany
  }

end Ledger

namespace Strategy

/-- The final ledger of a valid request holds the available capital. -/
theorem capital_finalLedger
    {request : Request}
    (valid : request.validate = .ok ())
    (strategy : Strategy) :
    (strategy.finalLedger request).capital = request.available := by
  rw [(continues_finalLedger strategy request).capital_eq]
  exact capital_openingLedger
    (Request.available_nonneg_of_validate valid)

/--
Every strategy, whatever its settings, has a plan for every valid request, and
the plan accounts for the available capital to the last unit.
-/
theorem plan_accountsFor_available
    {request : Request}
    (valid : request.validate = .ok ())
    (strategy : Strategy) :
    ∃ plan,
      strategy.plan request = .ok plan ∧
        plan.AccountsFor request.available := by
  refine
    ⟨strategy.planValid request, plan_of_valid valid strategy, ?_⟩
  have sound := (continues_finalLedger strategy request).sound
  exact sound.accountsFor_ofLedger
    (capital_finalLedger valid strategy) _ _

/-- The plan for three seed companies by even shares, under a negative tolerance. -/
theorem plan_accountsFor_threeSeeds :
    Request.threeSeeds.validate = .ok () ∧
      ∃ plan,
        (Strategy.constrained ⟨4294967295, -7, .evenShare⟩).plan
            Request.threeSeeds = .ok plan ∧
          plan.AccountsFor 900 :=
  ⟨Request.validate_threeSeeds,
    plan_accountsFor_available Request.validate_threeSeeds _⟩

end Strategy

end FollowOn

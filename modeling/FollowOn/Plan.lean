import FollowOn.Audit
import FollowOn.Ledger.Basic

namespace FollowOn

/-!
# Plans

A plan says how much of the available capital is reserved for each company, in
ranking order, with a summary and the outcome of the audit.
-/

/-- Totals and circumstances of a plan. -/
structure PlanSummary where
  available : Int
  allocated : Int
  /-- Companies with a positive reserve. -/
  fundedCount : Nat
  /-- Ids in ranking order. -/
  ranking : List String
  /-- The audit passed. -/
  conserved : Bool
  passes : Nat
  horizonMonths : Option Nat
  discrepancy : Option Discrepancy
deriving Repr, DecidableEq

/-- How capital is reserved. -/
structure Plan where
  /-- One entry for each company, in ranking order. -/
  allocations : List Allocation
  allocated : Int
  /-- Capital that is not reserved. -/
  remaining : Int
  summary : PlanSummary
deriving Repr, DecidableEq

namespace Ledger

/-- The allocations that a ledger stands for, in its order. -/
def allocations (ledger : Ledger) : List Allocation :=
  ledger.accounts.map fun account =>
    { companyId := account.companyId
      planned := account.granted
      cap := account.cap
      reason := account.reason ledger.pool
      pass := account.lastPaid
      policyDefaulted := account.policyDefaulted }

end Ledger

/-- Sum of the planned amounts. -/
def totalPlanned (allocations : List Allocation) : Int :=
  (allocations.map Allocation.planned).sum

namespace Plan

/-- The plan that a finished ledger gives for a request. -/
def ofLedger
    (request : Request)
    (ranking : List String)
    (tolerancePerCompany : Int)
    (ledger : Ledger) :
    Plan :=
  let allocations := ledger.allocations
  let allocated := totalPlanned allocations
  let outcome :=
    audit request.available allocations
      ledger.pool tolerancePerCompany
  { allocations := allocations
    allocated := allocated
    remaining := ledger.pool
    summary :=
      { available := request.available
        allocated := allocated
        fundedCount :=
          allocations.countP fun allocation =>
            decide (0 < allocation.planned)
        ranking := ranking
        conserved := outcome.passed
        passes := ledger.passes
        horizonMonths := request.constraints.horizonMonths
        discrepancy := outcome.discrepancy } }

/-- The allocation of a company. -/
def allocationFor?
    (plan : Plan)
    (companyId : String) :
    Option Allocation :=
  plan.allocations.find? fun allocation =>
    allocation.companyId == companyId

/-- The amount planned for a company, zero if the plan does not name it. -/
def plannedFor
    (plan : Plan)
    (companyId : String) :
    Int :=
  ((plan.allocationFor? companyId).map Allocation.planned).getD 0

end Plan

end FollowOn

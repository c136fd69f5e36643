import FollowOn.Cap

namespace FollowOn

/-!
# Audit of allocations

Planned amounts and what remains must reconcile with the capital that was
available, within a tolerance for each allocation, and no planned amount may
lie outside its cap. The audit works with exact sums, so it is right also on
amounts that no plan would hold; only its report is cut to the range of
amounts.
-/

/-- What a plan holds for one company. -/
structure Allocation where
  companyId : String
  planned : Int
  cap : Int
  reason : Reason
  /-- Pass of the last payment; zero without one. -/
  pass : Nat
  policyDefaulted : Bool
deriving Repr, DecidableEq

/-- An amount planned below zero or above its cap. -/
def Allocation.isOutside (allocation : Allocation) : Bool :=
  decide
    (allocation.planned < 0 ∨ allocation.cap < allocation.planned)

/-- How allocations fail the audit. -/
structure Discrepancy where
  /-- Capital that was available. -/
  expected : Int
  /-- Planned and remaining capital. -/
  actual : Int
  drift : Int
  tolerance : Int
  /-- Companies whose amount lies outside its cap. -/
  outsideCap : List String
deriving Repr, DecidableEq

/-- What an audit comes to. -/
structure AuditOutcome where
  passed : Bool
  /-- What is wrong; nothing if the audit passed. -/
  discrepancy : Option Discrepancy
deriving Repr, DecidableEq

/-- How far planned and remaining capital are from the available one. -/
def driftOf
    (available : Int)
    (allocations : List Allocation)
    (remaining : Int) :
    Int :=
  (available -
    ((allocations.map Allocation.planned).sum + remaining)).natAbs

/-- The drift that is tolerated in a number of allocations. -/
def toleranceOf
    (allocations : List Allocation)
    (tolerancePerCompany : Int) :
    Int :=
  max tolerancePerCompany 0 * allocations.length

/-- Check allocations and what remains against the available capital. -/
def audit
    (available : Int)
    (allocations : List Allocation)
    (remaining tolerancePerCompany : Int) :
    AuditOutcome :=
  let actual :=
    (allocations.map Allocation.planned).sum + remaining
  let drift := driftOf available allocations remaining
  let tolerance := toleranceOf allocations tolerancePerCompany
  let outside := allocations.filter Allocation.isOutside
  if drift ≤ tolerance ∧ outside = [] then
    { passed := true
      discrepancy := none }
  else
    { passed := false
      discrepancy :=
        some
          { expected := available
            actual := Amount.saturate actual
            drift := Amount.saturate drift
            tolerance := Amount.saturate tolerance
            outsideCap := outside.map Allocation.companyId } }

/-- The discrepancy that the audit finds, if it finds one. -/
def audit?
    (available : Int)
    (allocations : List Allocation)
    (remaining tolerancePerCompany : Int) :
    Option Discrepancy :=
  (audit available allocations remaining
    tolerancePerCompany).discrepancy

/-- The discrepancy that stands beside the verdict. -/
theorem discrepancy_audit
    (available : Int)
    (allocations : List Allocation)
    (remaining tolerancePerCompany : Int) :
    (audit available allocations remaining
        tolerancePerCompany).discrepancy =
      audit? available allocations remaining
        tolerancePerCompany := rfl

/-- The audit finds a discrepancy exactly if it does not pass. -/
theorem passed_audit_eq_isNone
    (available : Int)
    (allocations : List Allocation)
    (remaining tolerancePerCompany : Int) :
    (audit available allocations remaining
        tolerancePerCompany).passed =
      (audit? available allocations remaining
        tolerancePerCompany).isNone := by
  simp only [audit?, audit]
  split <;> rfl

/-- The audit passes exactly if the drift is tolerated and no amount is outside. -/
theorem audit?_eq_none_iff
    {available : Int}
    {allocations : List Allocation}
    {remaining tolerancePerCompany : Int} :
    audit? available allocations remaining tolerancePerCompany =
        none ↔
      driftOf available allocations remaining ≤
          toleranceOf allocations tolerancePerCompany ∧
        ∀ allocation ∈ allocations,
          0 ≤ allocation.planned ∧
            allocation.planned ≤ allocation.cap := by
  simp only [audit?, audit]
  split
  · simp_all [Allocation.isOutside]
  · simp_all [Allocation.isOutside]

end FollowOn

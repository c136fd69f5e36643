import FollowOn.Portfolio
import FollowOn.RequestFault
import FollowOn.Text.Blank

namespace FollowOn

/-!
# Validation of requests

A request is checked before anything is planned. The checks run in a fixed
order and the first violated one is the answer: the company list and the
capital, each company, each policy, the constraints. A key that was seen
before is a duplicate, so each list is checked with the keys of its earlier
entries at hand.
-/

/-- Turn a request down with `fault` if a condition holds. -/
def refuseIf
    (condition : Prop)
    [Decidable condition]
    (fault : RequestFault) :
    Except RequestFault Unit :=
  if condition then .error fault else .ok ()

/-- A check passes exactly if its condition does not hold. -/
@[simp] theorem refuseIf_eq_ok_iff
    (condition : Prop)
    [Decidable condition]
    (fault : RequestFault) :
    refuseIf condition fault = .ok () ↔ ¬condition := by
  unfold refuseIf
  split <;> simp [*]

/-- Check that an amount, if present, is not below zero. -/
def checkNotNegative
    (amount : Option Int)
    (fault : Int → RequestFault) :
    Except RequestFault Unit :=
  match amount with
  | some value => refuseIf (value < 0) (fault value)
  | none => .ok ()

/-- Check one company, after the companies with the given ids. -/
def Company.validate
    (company : Company)
    (earlierIds : List String) :
    Except RequestFault Unit := do
  refuseIf (Text.isBlank company.id)
    (.invalidCompany company.id .blankId)
  refuseIf (company.id ∈ earlierIds)
    (.duplicateCompany company.id)
  refuseIf (company.invested < 0)
    (.invalidCompany company.id (.negativeInvested company.invested))
  checkNotNegative company.hardCap fun amount =>
    .invalidCompany company.id (.negativeHardCap amount)

/-- Check companies in order, after the companies with the given ids. -/
def validateCompanies :
    List String →
    List Company →
    Except RequestFault Unit
  | _, [] => .ok ()
  | earlierIds, company :: rest => do
      company.validate earlierIds
      validateCompanies (company.id :: earlierIds) rest

/-- Check one policy, after the policies of the given stages. -/
def StagePolicy.validate
    (policy : StagePolicy)
    (earlierStages : List String) :
    Except RequestFault Unit := do
  refuseIf (Text.isBlank policy.stage)
    (.invalidPolicy .blankStage)
  refuseIf (policy.stage ∈ earlierStages)
    (.duplicatePolicy policy.stage)
  refuseIf (policy.reserveMultiple.micros < 0)
    (.invalidPolicy (.negativeMultiple policy.stage))
  refuseIf (policy.priorityWeight.micros < 0)
    (.invalidPolicy (.negativeWeight policy.stage))

/-- Check policies in order, after the policies of the given stages. -/
def validatePolicies :
    List String →
    List StagePolicy →
    Except RequestFault Unit
  | _, [] => .ok ()
  | earlierStages, policy :: rest => do
      policy.validate earlierStages
      validatePolicies (policy.stage :: earlierStages) rest

/-- Check that the least first check stays within the greatest reserve. -/
def checkReserveOrder :
    Option Int →
    Option Int →
    Except RequestFault Unit
  | some least, some greatest =>
      refuseIf (greatest < least)
        (.invalidConstraints (.minExceedsMax least greatest))
  | _, _ => .ok ()

/-- Check that a share of the capital is above zero and at most one. -/
def checkShare : Option Ratio → Except RequestFault Unit
  | some share =>
      refuseIf (share.micros ≤ 0 ∨ Ratio.scale < share.micros)
        (.invalidConstraints (.shareOutOfRange share))
  | none => .ok ()

/--
Constraints are checked for negative amounts first, then for their order, then
for the share.
-/
def Constraints.validate
    (constraints : Constraints) :
    Except RequestFault Unit := do
  checkNotNegative constraints.minReserve fun _ =>
    .invalidConstraints .negativeMinReserve
  checkNotNegative constraints.maxReserve fun _ =>
    .invalidConstraints .negativeMaxReserve
  checkReserveOrder constraints.minReserve constraints.maxReserve
  checkShare constraints.maxShare

/-- Check a request; the first violated check is its fault. -/
def Request.validate
    (request : Request) :
    Except RequestFault Unit := do
  refuseIf (request.companies = []) .noCompanies
  refuseIf (request.available < 0)
    (.negativeCapital request.available)
  validateCompanies [] request.companies
  validatePolicies [] request.policies
  request.constraints.validate

end FollowOn

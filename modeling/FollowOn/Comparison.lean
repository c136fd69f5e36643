import FollowOn.Strategy

namespace FollowOn

/-!
# Comparing two strategies

Two strategies plan the same request, and the planned amounts of each company
are set side by side. The strategy in use comes first; the other one is its
shadow.
-/

/-- The amounts that two plans hold for one company. -/
structure CompanyDelta where
  companyId : String
  primary : Int
  shadow : Int
  /-- The shadow amount less the primary one. -/
  delta : Int
deriving Repr, DecidableEq

/-- Two plans for one request and how they differ. -/
structure Comparison where
  /-- Name of the strategy in use. -/
  primaryName : String
  /-- Name of the other strategy. -/
  shadowName : String
  primary : Plan
  shadow : Plan
  /-- One entry for each company, in the ranking order of the primary plan. -/
  deltas : List CompanyDelta
  /-- The shadow total less the primary one. -/
  totalDelta : Int
deriving Repr, DecidableEq

/-- The amounts of one allocation and of the same company in another plan. -/
def Allocation.deltaTo
    (shadow : Plan)
    (allocation : Allocation) :
    CompanyDelta where
  companyId := allocation.companyId
  primary := allocation.planned
  shadow := shadow.plannedFor allocation.companyId
  delta :=
    shadow.plannedFor allocation.companyId - allocation.planned

namespace Comparison

def ofPlans
    (primaryName shadowName : String)
    (primary shadow : Plan) :
    Comparison where
  primaryName := primaryName
  shadowName := shadowName
  primary := primary
  shadow := shadow
  deltas := primary.allocations.map (Allocation.deltaTo shadow)
  totalDelta := shadow.allocated - primary.allocated

def isIdentical (comparison : Comparison) : Bool :=
  comparison.totalDelta == 0 &&
    comparison.deltas.all fun company => company.delta == 0

/-- The greatest difference of one company, in either direction. -/
def maxAbsDelta (comparison : Comparison) : Nat :=
  (comparison.deltas.map fun company => company.delta.natAbs).foldr max 0

end Comparison

def compareStrategies
    (primary shadow : Strategy)
    (request : Request) :
    Except RequestFault Comparison := do
  let primaryPlan ← primary.plan request
  let shadowPlan ← shadow.plan request
  .ok
    (Comparison.ofPlans primary.name shadow.name
      primaryPlan shadowPlan)

/-- Strategies are compared on every valid request. -/
theorem compareStrategies_eq_ok
    {request : Request}
    (valid : request.validate = .ok ())
    (primary shadow : Strategy) :
    compareStrategies primary shadow request =
      .ok
        (Comparison.ofPlans primary.name shadow.name
          (primary.planValid request) (shadow.planValid request)) := by
  simp [compareStrategies, Strategy.plan, valid, bind, Except.bind,
    Except.map]

/-- Strategies cannot be compared exactly on the requests that both turn down. -/
theorem compareStrategies_eq_error_iff
    {primary shadow : Strategy}
    {request : Request}
    {fault : RequestFault} :
    compareStrategies primary shadow request = .error fault ↔
      request.validate = .error fault := by
  unfold compareStrategies Strategy.plan
  cases request.validate <;>
    simp [bind, Except.bind, Except.map]

end FollowOn

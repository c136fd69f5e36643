import FollowOn.Ledger.Remainder
import FollowOn.Ledger.Weighted
import FollowOn.Plan
import FollowOn.Ranking
import FollowOn.Validation

namespace FollowOn

/-!
# Strategies

A strategy turns a valid request into a plan. Both strategies validate the
request, rank its companies and open one account for each with its cap; they
differ in the passes that they run over the ledger.
-/

/-- What a strategy can be adjusted by. -/
structure Settings where
  /-- Passes after the first one, before they are capped. -/
  maxRemainderPasses : Nat
  /-- Drift that the audit tolerates for each company. -/
  tolerancePerCompany : Int
  sharing : SharingRule
deriving Repr, DecidableEq

namespace Settings

/-- Greatest number of remainder passes that is honoured. -/
def passCeiling : Nat := 8

def standard : Settings where
  maxRemainderPasses := 2
  tolerancePerCompany := 1
  sharing := .greedy

/-- Set the remainder passes, cut to the ceiling. -/
def withRemainderPasses
    (passes : Nat)
    (settings : Settings) :
    Settings :=
  { settings with maxRemainderPasses := min passes passCeiling }

/-- Set the tolerance, which is at least zero. -/
def withTolerance
    (tolerance : Int)
    (settings : Settings) :
    Settings :=
  { settings with tolerancePerCompany := max tolerance 0 }

def withSharing
    (sharing : SharingRule)
    (settings : Settings) :
    Settings :=
  { settings with sharing := sharing }

/-- The remainder passes that are honoured. -/
def remainderPasses (settings : Settings) : Nat :=
  min settings.maxRemainderPasses passCeiling

/-- However many remainder passes are set, no more than the ceiling are made. -/
theorem remainderPasses_le
    (settings : Settings) :
    settings.remainderPasses ≤ passCeiling :=
  Nat.min_le_right _ _

end Settings

/-- How the capital is split. -/
inductive Strategy where
  /-- In ranking order, pass by pass. -/
  | constrained (settings : Settings)
  /-- In proportion to cap and weight; only the tolerance of its settings counts. -/
  | proRata (settings : Settings)
deriving Repr, DecidableEq

namespace Request

/-- The caps of a request's companies, in ranking order. -/
def rankedCaps (request : Request) : List Cap :=
  (ranked request.companies).map request.capOf

/-- A new account for each company, in ranking order, with the cap at its place. -/
def accounts (request : Request) : List Account :=
  (ranked request.companies).zipWith
    (fun company cap => Account.opened company.id cap)
    request.rankedCaps

/-- The ledger of a request before its first pass. -/
def ledger (request : Request) : Ledger :=
  (Ledger.opened request.accounts request.available).withMinimum
    request.constraints.minReserve

/-- The weight of a cap in a proportional split: its amount by its priority. -/
def weightOf (cap : Cap) : Nat :=
  cap.amount.toNat * cap.priorityWeight.micros.toNat

/-- The weights of a request's accounts, in ranking order. -/
def weights (request : Request) : List Nat :=
  request.rankedCaps.map weightOf

/-- Each account has the cap of its own company. -/
theorem accounts_eq_map
    (request : Request) :
    request.accounts =
      (ranked request.companies).map fun company =>
        Account.opened company.id (request.capOf company) := by
  rw [accounts, rankedCaps, List.zipWith_map_right, List.zipWith_self]

/-- Each weight is that of the cap of its own company. -/
theorem weights_eq_map
    (request : Request) :
    request.weights =
      (ranked request.companies).map fun company =>
        weightOf (request.capOf company) := by
  rw [weights, rankedCaps, List.map_map]
  rfl

end Request

namespace Strategy

def name : Strategy → String
  | .constrained _ => "constrained"
  | .proRata _ => "pro_rata"

def settings : Strategy → Settings
  | .constrained settings => settings
  | .proRata settings => settings

def ofName?
    (settings : Settings)
    (name : String) :
    Option Strategy :=
  match name with
  | "constrained" => some (.constrained settings)
  | "pro_rata" => some (.proRata settings)
  | _ => none

def standard : Strategy :=
  .constrained Settings.standard

/-- The ledger of a request after the passes of a strategy. -/
def finalLedger
    (strategy : Strategy)
    (request : Request) :
    Ledger :=
  match strategy with
  | .constrained settings =>
      let first :=
        (request.ledger.withSharing settings.sharing).runPass.1
      (Ledger.redistribute settings.remainderPasses first).1
  | .proRata _ =>
      let first := (request.ledger.runWeighted request.weights).1
      if 0 < first.pool ∧ first.hasOpenRoom then
        first.runPass.1
      else
        first

/-- The plan of a strategy for a request that has been validated. -/
def planValid
    (strategy : Strategy)
    (request : Request) :
    Plan :=
  Plan.ofLedger request (rankedIds request.companies)
    strategy.settings.tolerancePerCompany
    (strategy.finalLedger request)

/-- The plan of a strategy for a request, or why there is none. -/
def plan
    (strategy : Strategy)
    (request : Request) :
    Except RequestFault Plan :=
  request.validate.map fun _ => strategy.planValid request

/--
The plans for requests, in their order. Requests may be planned in parallel;
collecting the plans keeps the order of the requests.
-/
def planAll
    (strategy : Strategy)
    (requests : List Request) :
    List (Except RequestFault Plan) :=
  requests.map strategy.plan

/-- A strategy plans exactly the valid requests. -/
theorem plan_eq_ok_iff
    {strategy : Strategy}
    {request : Request}
    {plan : Plan} :
    strategy.plan request = .ok plan ↔
      request.validate = .ok () ∧
        strategy.planValid request = plan := by
  unfold Strategy.plan
  cases request.validate <;> simp [Except.map]

/-- A strategy turns a request down exactly with the fault of its validation. -/
theorem plan_eq_error_iff
    {strategy : Strategy}
    {request : Request}
    {fault : RequestFault} :
    strategy.plan request = .error fault ↔
      request.validate = .error fault := by
  unfold Strategy.plan
  cases request.validate <;> simp [Except.map]

end Strategy

end FollowOn

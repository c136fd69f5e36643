import FollowOn.Portfolio

namespace FollowOn

/-!
# Caps

How much a company may receive at most, and which bound says so. Up to four
bounds apply: the company's own limit, the greatest reserve of one company,
the greatest share of the available capital, and the multiple of its stage.
The tightest one is the cap; of equally tight bounds the one named first in
this list is.
-/

/-- What determined the reserve of a company. -/
inductive Reason where
  /-- The multiple of its stage. -/
  | stageMultiple
  /-- Its invested capital, for want of a policy of its stage. -/
  | defaultPolicy
  /-- A limit of its own. -/
  | explicitCap
  /-- The greatest reserve of one company. -/
  | maxReserve
  /-- The greatest share of the available capital. -/
  | concentration
  /-- Nothing was invested in it. -/
  | zeroInvested
  /-- The capital ran out. -/
  | capitalExhausted
  /-- Its first check would have been too small. -/
  | belowMinimum
  /-- No pass was left. -/
  | passLimit
deriving Repr, DecidableEq

namespace Reason

def label : Reason → String
  | .stageMultiple => "stage_multiple"
  | .defaultPolicy => "default_policy"
  | .explicitCap => "explicit_cap"
  | .maxReserve => "max_reserve"
  | .concentration => "concentration"
  | .zeroInvested => "zero_invested"
  | .capitalExhausted => "capital_exhausted"
  | .belowMinimum => "below_minimum"
  | .passLimit => "pass_limit"

def all : List Reason :=
  [.stageMultiple, .defaultPolicy, .explicitCap, .maxReserve,
    .concentration, .zeroInvested, .capitalExhausted,
    .belowMinimum, .passLimit]

end Reason

/-- One bound on the reserve of a company. -/
structure Bound where
  amount : Int
  reason : Reason
deriving Repr, DecidableEq

/-- The greatest reserve of one company. -/
structure Cap where
  amount : Int
  reason : Reason
  /-- No policy was of the company's stage. -/
  policyDefaulted : Bool
  /-- Weight of the stage; one without a policy. -/
  priorityWeight : Ratio
deriving Repr, DecidableEq

/-- The multiple of the stage, or one without a policy. -/
def stageMultipleOf (policy : Option StagePolicy) : Ratio :=
  (policy.map StagePolicy.reserveMultiple).getD Ratio.one

/-- The bound that always applies: a multiple of the invested capital. -/
def stageBound
    (company : Company)
    (policy : Option StagePolicy) :
    Bound where
  amount := (stageMultipleOf policy).applyTo company.invested
  reason :=
    if policy.isNone then .defaultPolicy else .stageMultiple

/-- The bounds that apply only if they are set, in their order. -/
def optionalBounds
    (company : Company)
    (constraints : Constraints)
    (available : Int) :
    List Bound :=
  [company.hardCap.map (Bound.mk · .explicitCap),
    constraints.maxReserve.map (Bound.mk · .maxReserve),
    constraints.maxShare.map fun share =>
      Bound.mk (share.applyTo available) .concentration].reduceOption

/-- The tightest of some bounds and a last one; earlier ones win ties. -/
def tightest
    (bounds : List Bound)
    (last : Bound) :
    Bound :=
  bounds.foldr
    (fun bound rest =>
      if bound.amount ≤ rest.amount then bound else rest)
    last

/-- The cap of a company whose stage has the given policy. -/
def evaluateCap
    (company : Company)
    (policy : Option StagePolicy)
    (constraints : Constraints)
    (available : Int) :
    Cap :=
  let binding :=
    if company.invested ≤ 0 then
      Bound.mk 0 .zeroInvested
    else
      tightest
        (optionalBounds company constraints available)
        (stageBound company policy)
  { amount := max 0 binding.amount
    reason := binding.reason
    policyDefaulted := policy.isNone
    priorityWeight :=
      (policy.map StagePolicy.priorityWeight).getD Ratio.one }

/-- The cap of a company under the policies and the constraints of its request. -/
def Request.capOf
    (request : Request)
    (company : Company) :
    Cap :=
  evaluateCap company
    (policyFor? request.policies company.stage)
    request.constraints request.available

/-- The caps of a request's companies, in the order in which they are given. -/
def Request.caps (request : Request) : List Cap :=
  request.companies.map request.capOf

/-- No cap is below zero. -/
theorem evaluateCap_amount_nonneg
    (company : Company)
    (policy : Option StagePolicy)
    (constraints : Constraints)
    (available : Int) :
    0 ≤ (evaluateCap company policy constraints available).amount := by
  simp only [evaluateCap]
  omega

/-- The tightest bound is one of those compared. -/
theorem tightest_mem
    (bounds : List Bound)
    (last : Bound) :
    tightest bounds last ∈ bounds ++ [last] := by
  induction bounds with
  | nil =>
      simp [tightest]
  | cons bound rest inductionHypothesis =>
      simp only [tightest, List.foldr_cons] at *
      split
      · simp
      · exact List.mem_cons_of_mem _ inductionHypothesis

/-- No bound is tighter than the one that is chosen. -/
theorem tightest_le
    {bounds : List Bound}
    {last bound : Bound}
    (member : bound ∈ bounds ++ [last]) :
    (tightest bounds last).amount ≤ bound.amount := by
  induction bounds with
  | nil =>
      simp_all [tightest]
  | cons first rest inductionHypothesis =>
      simp only [tightest, List.foldr_cons] at *
      simp only [List.cons_append, List.mem_cons] at member
      rcases member with isFirst | inRest
      · subst isFirst
        split <;> omega
      · have bounded := inductionHypothesis inRest
        split <;> omega

end FollowOn

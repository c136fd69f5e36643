import FollowOn.Strategy

namespace FollowOn

/-!
# Checking plans against reference amounts

A reference case holds a request with amounts that were computed elsewhere: a
total, and the amounts of some companies. The case passes if the plan comes
within a tolerance of each of them. A report collects the outcomes of many
cases in their order.
-/

/-- Amounts by company id, each id once, in ascending order. -/
structure Targets where
  entries : List (String × Int)
  ascending :
    entries.Pairwise fun earlier later => earlier.1 < later.1
deriving DecidableEq

/-- Entries with the amount of one id set. -/
def setEntry
    (id : String)
    (amount : Int) :
    List (String × Int) →
    List (String × Int)
  | [] => [(id, amount)]
  | (key, value) :: rest =>
      if id < key then
        (id, amount) :: (key, value) :: rest
      else if id = key then
        (id, amount) :: rest
      else
        (key, value) :: setEntry id amount rest

/-- Setting an entry adds no key but its own. -/
theorem fst_mem_of_mem_setEntry
    {id : String}
    {amount : Int}
    {entries : List (String × Int)}
    {entry : String × Int}
    (member : entry ∈ setEntry id amount entries) :
    entry.1 = id ∨ entry ∈ entries := by
  induction entries with
  | nil =>
      simp_all [setEntry]
  | cons first rest inductionHypothesis =>
      simp only [setEntry] at member
      split at member
      · simp only [List.mem_cons] at member ⊢
        rcases member with rfl | inRest
        · exact .inl rfl
        · exact .inr inRest
      · split at member
        · simp only [List.mem_cons] at member ⊢
          rcases member with rfl | inRest
          · exact .inl rfl
          · exact .inr (.inr inRest)
        · simp only [List.mem_cons] at member ⊢
          rcases member with rfl | inRest
          · exact .inr (.inl rfl)
          · rcases inductionHypothesis inRest with sameId | before
            · exact .inl sameId
            · exact .inr (.inr before)

/-- Setting an entry keeps the keys in order. -/
theorem ascending_setEntry
    {id : String}
    {amount : Int}
    {entries : List (String × Int)}
    (ascending :
      entries.Pairwise fun earlier later => earlier.1 < later.1) :
    (setEntry id amount entries).Pairwise
      fun earlier later => earlier.1 < later.1 := by
  induction entries with
  | nil =>
      simp [setEntry]
  | cons first rest inductionHypothesis =>
      obtain ⟨key, value⟩ := first
      obtain ⟨leads, restAscending⟩ := List.pairwise_cons.mp ascending
      simp only [setEntry]
      split
      · rename_i before
        refine List.pairwise_cons.mpr ⟨?_, ascending⟩
        intro later member
        rcases List.mem_cons.mp member with rfl | inRest
        · exact before
        · exact String.lt_trans before (leads later inRest)
      · split
        · rename_i _ same
          subst same
          exact List.pairwise_cons.mpr ⟨leads, restAscending⟩
        · rename_i notBefore notSame
          refine List.pairwise_cons.mpr
            ⟨?_, inductionHypothesis restAscending⟩
          intro later member
          rcases fst_mem_of_mem_setEntry member with sameId | inRest
          · rw [sameId]
            rcases String.le_total key id with ordered | ordered
            · rcases Decidable.em (key < id) with less | notLess
              · exact less
              · exact absurd
                  (String.le_antisymm (String.not_lt.mp notLess) ordered)
                  notSame
            · exact absurd
                (String.le_antisymm ordered (String.not_lt.mp notBefore))
                notSame
          · exact leads later inRest

namespace Targets

def empty : Targets where
  entries := []
  ascending := .nil

def set
    (id : String)
    (amount : Int)
    (targets : Targets) :
    Targets where
  entries := setEntry id amount targets.entries
  ascending := ascending_setEntry targets.ascending

end Targets

/-- A request with the amounts that its plan should come to. -/
structure ReferenceCase where
  name : String
  request : Request
  expectedTotal : Int
  /-- Amounts of some companies; the others are not checked. -/
  targets : Targets
deriving DecidableEq

/-- A company whose planned amount is too far from its target. -/
structure Mismatch where
  companyId : String
  expected : Int
  actual : Int
deriving Repr, DecidableEq

/-- What came of one case. -/
structure CaseOutcome where
  name : String
  passed : Bool
  /-- How far the total is from the expected one; zero without a plan. -/
  totalDrift : Int
  mismatches : List Mismatch
  /-- Why there is no plan, if so. -/
  fault : Option String
deriving Repr, DecidableEq

/-- What came of many cases. -/
structure ReferenceReport where
  /-- Name of the strategy that planned. -/
  strategy : String
  tolerance : Int
  /-- Outcomes in the order of the cases. -/
  outcomes : List CaseOutcome
deriving Repr, DecidableEq

namespace ReferenceReport

def passed (report : ReferenceReport) : Nat :=
  report.outcomes.countP CaseOutcome.passed

def failed (report : ReferenceReport) : Nat :=
  report.outcomes.length - report.passed

def allPassed (report : ReferenceReport) : Bool :=
  report.outcomes.all CaseOutcome.passed

end ReferenceReport

/-- The targets that a plan misses by more than a tolerance, in their order. -/
def Plan.mismatches
    (plan : Plan)
    (tolerance : Int)
    (targets : Targets) :
    List Mismatch :=
  targets.entries.filterMap fun (companyId, expected) =>
    let actual := plan.plannedFor companyId
    if tolerance < Amount.distance actual expected then
      some { companyId, expected, actual }
    else
      none

namespace ReferenceCase

/-- How a plan meets a case. -/
def judge
    (case_ : ReferenceCase)
    (tolerance : Int)
    (plan : Plan) :
    CaseOutcome :=
  let drift :=
    Amount.distance plan.allocated case_.expectedTotal
  let mismatches := plan.mismatches tolerance case_.targets
  { name := case_.name
    passed := decide (drift ≤ tolerance) && mismatches.isEmpty
    totalDrift := drift
    mismatches := mismatches
    fault := none }

/-- The outcome of a case without a plan. -/
def unplanned
    (case_ : ReferenceCase)
    (fault : RequestFault) :
    CaseOutcome where
  name := case_.name
  passed := false
  totalDrift := 0
  mismatches := []
  fault := some fault.message

/-- Plan a case and check it; a tolerance below zero counts as zero. -/
def check
    (case_ : ReferenceCase)
    (strategy : Strategy)
    (tolerance : Int) :
    CaseOutcome :=
  match strategy.plan case_.request with
  | .ok plan => case_.judge (max tolerance 0) plan
  | .error fault => case_.unplanned fault

end ReferenceCase

/--
The outcomes of cases, in their order. The cases do not depend on each other
and may be checked in parallel; collecting the outcomes keeps the order of the
cases, whichever is done first, so the report is that of one after the other.
-/
def checkReferences
    (strategy : Strategy)
    (cases_ : List ReferenceCase)
    (tolerance : Int) :
    ReferenceReport where
  strategy := strategy.name
  tolerance := tolerance
  outcomes := cases_.map fun case_ => case_.check strategy tolerance

end FollowOn

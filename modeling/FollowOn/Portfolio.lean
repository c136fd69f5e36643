import FollowOn.Ratio
import Std.Data.TreeMap.Lemmas

namespace FollowOn

/-!
# Portfolios and reserve requests

A request names the companies of a portfolio, the capital that is available
for follow-on reserves, the policy of each investment stage, and constraints
that hold for every company. Nothing here is checked; `Request.validate` in
`FollowOn.Validation` says which requests can be planned.
-/

/-- A portfolio company that may receive reserves. -/
structure Company where
  id : String
  name : String
  /-- Key of the policy that applies. -/
  stage : String
  /-- Capital invested to date. -/
  invested : Int
  /-- Projected multiple of the invested capital on exit. -/
  exitMultiple : Ratio
  /-- Greatest reserve, if this company has a limit of its own. -/
  hardCap : Option Int
deriving Repr, DecidableEq

/-- What every company at one stage may receive. -/
structure StagePolicy where
  stage : String
  /-- Reserves go up to this multiple of the invested capital. -/
  reserveMultiple : Ratio
  /-- Weight of the stage when capital is split in proportion. -/
  priorityWeight : Ratio
deriving Repr, DecidableEq

/-- Bounds that hold for every company; each may be absent. -/
structure Constraints where
  /-- Least first check. -/
  minReserve : Option Int
  /-- Greatest reserve of one company. -/
  maxReserve : Option Int
  /-- Months over which reserves are to be deployed; reported, not used. -/
  horizonMonths : Option Nat
  /-- Greatest share of the available capital for one company. -/
  maxShare : Option Ratio
deriving Repr, DecidableEq

def Constraints.none : Constraints where
  minReserve := .none
  maxReserve := .none
  horizonMonths := .none
  maxShare := .none

/-- Everything that one plan depends on. -/
structure Request where
  companies : List Company
  /-- Capital available for reserves. -/
  available : Int
  policies : List StagePolicy
  constraints : Constraints
deriving Repr, DecidableEq

/-- Policies by their stage, one for each. -/
structure PolicyBook where
  byStage : Std.TreeMap String StagePolicy

namespace PolicyBook

/-- Add a policy, unless there is one of its stage. -/
def add
    (book : PolicyBook)
    (policy : StagePolicy) :
    PolicyBook where
  byStage := book.byStage.insertIfNew policy.stage policy

/-- The policies of a list, added in their order. -/
def ofList (policies : List StagePolicy) : PolicyBook :=
  policies.foldl add ⟨∅⟩

/-- The policy that the book holds for a stage. -/
def get?
    (book : PolicyBook)
    (stage : String) :
    Option StagePolicy :=
  book.byStage[stage]?

/-- The stages that have a policy, each once, in their order. -/
def stages (book : PolicyBook) : List String :=
  book.byStage.keys

/-- Number of stages that have a policy. -/
def count (book : PolicyBook) : Nat :=
  book.byStage.size

end PolicyBook

/-- The policy of a stage, in the book of some policies. -/
def policyFor?
    (policies : List StagePolicy)
    (stage : String) :
    Option StagePolicy :=
  (PolicyBook.ofList policies).get? stage

/-- The stages that have a policy in the book of some policies. -/
def policyStages (policies : List StagePolicy) : List String :=
  (PolicyBook.ofList policies).stages

namespace PolicyBook

/-- Adding a policy changes the book at its stage, and only if nothing is there. -/
theorem get?_add
    (book : PolicyBook)
    (policy : StagePolicy)
    (stage : String) :
    (book.add policy).get? stage =
      (book.get? stage).or
        (if policy.stage = stage then some policy else none) := by
  simp only [add, get?, Std.TreeMap.getElem?_insertIfNew,
    Std.LawfulEqCmp.compare_eq_iff_eq]
  by_cases sameStage : policy.stage = stage
  · subst sameStage
    by_cases recorded : policy.stage ∈ book.byStage
    · simp [recorded]
    · simp [recorded]
  · simp [sameStage]

/-- The stages of a book are as many as it counts. -/
theorem length_stages
    (book : PolicyBook) :
    book.stages.length = book.count :=
  Std.TreeMap.length_keys

/-- Policies that are added in a row are looked up in that order, after those in the book. -/
theorem get?_foldl_add
    (policies : List StagePolicy)
    (book : PolicyBook)
    (stage : String) :
    (policies.foldl add book).get? stage =
      (book.get? stage).or
        (policies.find? fun policy => policy.stage == stage) := by
  induction policies generalizing book with
  | nil =>
      simp
  | cons policy rest inductionHypothesis =>
      rw [List.foldl_cons, inductionHypothesis, get?_add,
        Option.or_assoc, List.find?_cons]
      by_cases sameStage : policy.stage = stage
      · simp [sameStage]
      · simp [beq_false_of_ne sameStage, sameStage]

end PolicyBook

/-- The policy of a stage is the first one listed. -/
theorem policyFor?_eq_find?
    (policies : List StagePolicy)
    (stage : String) :
    policyFor? policies stage =
      policies.find? fun policy => policy.stage == stage := by
  rw [policyFor?, PolicyBook.ofList, PolicyBook.get?_foldl_add]
  simp [PolicyBook.get?]

/-- The policy that is found is one of the list, and of the stage. -/
theorem mem_and_stage_of_policyFor?
    {policies : List StagePolicy}
    {stage : String}
    {policy : StagePolicy}
    (found : policyFor? policies stage = some policy) :
    policy ∈ policies ∧ policy.stage = stage := by
  rw [policyFor?_eq_find?] at found
  refine ⟨List.mem_of_find?_eq_some found, ?_⟩
  have sameStage := List.find?_some found
  simpa using sameStage

/-- No policy is found exactly if the list has none of the stage. -/
theorem policyFor?_eq_none_iff
    {policies : List StagePolicy}
    {stage : String} :
    policyFor? policies stage = .none ↔
      ∀ policy ∈ policies, policy.stage ≠ stage := by
  simp [policyFor?_eq_find?]

/-- A stage has a policy in the book exactly if one of the list is of that stage. -/
theorem mem_policyStages_iff
    {policies : List StagePolicy}
    {stage : String} :
    stage ∈ policyStages policies ↔
      ∃ policy ∈ policies, policy.stage = stage := by
  have looked :
      stage ∈ policyStages policies ↔
        policyFor? policies stage ≠ .none := by
    rw [policyStages, PolicyBook.stages, Std.TreeMap.mem_keys,
      Std.TreeMap.mem_iff_isSome_getElem?, policyFor?,
      PolicyBook.get?, Option.isSome_iff_ne_none]
  rw [looked, ne_eq, policyFor?_eq_none_iff]
  simp

/-- A book holds one policy for each stage. -/
theorem nodup_policyStages
    (policies : List StagePolicy) :
    (policyStages policies).Nodup :=
  Std.TreeMap.nodup_keys

end FollowOn

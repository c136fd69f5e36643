import FollowOn.Proofs.Lookup
import FollowOn.Reference
import Mathlib.Algebra.Order.Group.Unbundled.Int

namespace FollowOn

/-!
# The verdict on a reference case

How far two amounts are apart may not fit where amounts are stored, so it is
cut to the greatest amount. No tolerance below that one can tell: a case
passes exactly if the plan comes within the tolerance of each of its amounts,
by exact distances, and the mismatches are the targets that it does not come
near. A greater tolerance only forgives.
-/

namespace Amount

/-- Below the greatest amount, a distance that was cut compares as the exact one does. -/
theorem distance_le_iff
    {left right tolerance : Int}
    (below : tolerance < greatest) :
    distance left right ≤ tolerance ↔ |left - right| ≤ tolerance := by
  rw [distance, Int.abs_eq_natAbs]
  omega

/-- Below the greatest amount a distance exceeds a tolerance as the exact one does. -/
theorem lt_distance_iff
    {left right tolerance : Int}
    (below : tolerance < greatest) :
    tolerance < distance left right ↔ tolerance < |left - right| := by
  rw [← Int.not_le, distance_le_iff below, Int.not_le]

/-- A tolerance below the greatest amount stays below it if it is raised to zero. -/
theorem max_zero_lt_greatest
    {tolerance : Int}
    (below : tolerance < greatest) :
    max tolerance 0 < greatest :=
  Int.max_lt.mpr ⟨below, by decide⟩

/-- An amount is no way from itself. -/
theorem distance_self
    (amount : Int) :
    distance amount amount = 0 := by
  rw [distance, Int.sub_self]
  rfl

end Amount

/--
What a plan for a request reserves under an id: the amount of the allocation
that has it, or nothing if no company has it.
-/
inductive Plan.ReservesUnder
    (request : Request)
    (plan : Plan)
    (id : String) :
    Int → Prop where
  | listed
      {allocation : Allocation}
      (member : allocation ∈ plan.allocations)
      (sameId : allocation.companyId = id) :
      ReservesUnder request plan id allocation.planned
  | unlisted
      (noCompany : ∀ company ∈ request.companies, company.id ≠ id) :
      ReservesUnder request plan id 0

/-- A plan comes within a tolerance of every amount of a case; below zero it counts as zero. -/
structure ReferenceCase.IsMetBy
    (case_ : ReferenceCase)
    (tolerance : Int)
    (plan : Plan) : Prop where
  total : |plan.allocated - case_.expectedTotal| ≤ max tolerance 0
  amounts :
    ∀ target ∈ case_.targets.entries,
      ∃ actual,
        plan.ReservesUnder case_.request target.1 actual ∧
          |actual - target.2| ≤ max tolerance 0

/-- A target of a case that a plan misses by more than a tolerance, with both amounts. -/
structure Mismatch.IsOf
    (case_ : ReferenceCase)
    (tolerance : Int)
    (plan : Plan)
    (mismatch : Mismatch) : Prop where
  listed :
    (mismatch.companyId, mismatch.expected) ∈ case_.targets.entries
  reserves :
    plan.ReservesUnder case_.request mismatch.companyId
      mismatch.actual
  beyond : max tolerance 0 < |mismatch.actual - mismatch.expected|

/-- A case expects what a plan came to, in total and for the companies it lists. -/
structure ReferenceCase.TakenFrom
    (plan : Plan)
    (case_ : ReferenceCase) : Prop where
  total_eq : case_.expectedTotal = plan.allocated
  targets_taken :
    ∀ target ∈ case_.targets.entries,
      ∃ allocation ∈ plan.allocations,
        target = (allocation.companyId, allocation.planned)

/-- What a plan for a valid request reserves under an id is what it says on asking. -/
theorem Strategy.reservesUnder_iff
    {request : Request}
    (valid : request.validate = .ok ())
    {strategy : Strategy}
    {id : String}
    {amount : Int} :
    (strategy.planValid request).ReservesUnder request id amount ↔
      (strategy.planValid request).plannedFor id = amount := by
  constructor
  · rintro (⟨member, sameId⟩ | noCompany)
    · rw [Plan.plannedFor,
        (allocationFor?_eq_some_iff valid).mpr ⟨member, sameId⟩]
      rfl
    · rw [Plan.plannedFor, allocationFor?_eq_none_iff.mpr noCompany]
      rfl
  · intro same
    rw [← same, Plan.plannedFor]
    cases found : (strategy.planValid request).allocationFor? id with
    | none =>
        exact .unlisted (allocationFor?_eq_none_iff.mp found)
    | some allocation =>
        obtain ⟨member, sameId⟩ :=
          (allocationFor?_eq_some_iff valid).mp found
        exact .listed member sameId

section Mismatches

variable
    {plan : Plan}
    {tolerance greater : Int}
    {targets : Targets}

/-- The mismatches of a plan are its missed targets with what it reserves instead. -/
theorem Plan.mismatches_eq :
    plan.mismatches tolerance targets =
      (targets.entries.filter fun target =>
          decide
            (tolerance <
              Amount.distance (plan.plannedFor target.1)
                target.2)).map
        fun target =>
          ⟨target.1, target.2, plan.plannedFor target.1⟩ := by
  rw [Plan.mismatches]
  induction targets.entries with
  | nil =>
      rfl
  | cons first rest inductionHypothesis =>
      rw [List.filterMap_cons, List.filter_cons, inductionHypothesis]
      by_cases missed :
          tolerance <
            Amount.distance (plan.plannedFor first.1) first.2
      · simp [missed]
      · simp [missed]

/-- A mismatch is a target that the plan misses by more than the tolerance. -/
theorem Plan.mem_mismatches_iff
    {mismatch : Mismatch} :
    mismatch ∈ plan.mismatches tolerance targets ↔
      (mismatch.companyId, mismatch.expected) ∈ targets.entries ∧
        plan.plannedFor mismatch.companyId = mismatch.actual ∧
        tolerance <
          Amount.distance mismatch.actual mismatch.expected := by
  rw [mismatches_eq]
  simp only [List.mem_map, List.mem_filter, decide_eq_true_eq]
  constructor
  · rintro ⟨target, ⟨listed, missed⟩, rfl⟩
    exact ⟨listed, rfl, missed⟩
  · rintro ⟨listed, actual, missed⟩
    rw [← actual] at missed
    refine ⟨_, ⟨listed, missed⟩, ?_⟩
    simp only [actual]

/-- There is no mismatch exactly if the plan meets every target. -/
theorem Plan.mismatches_eq_nil_iff :
    plan.mismatches tolerance targets = [] ↔
      ∀ target ∈ targets.entries,
        Amount.distance (plan.plannedFor target.1) target.2 ≤
          tolerance := by
  simp [mismatches_eq, List.filter_eq_nil_iff]

/-- Mismatches are listed by ascending ids. -/
theorem Plan.mismatches_ascending :
    (plan.mismatches tolerance targets).Pairwise
      fun earlier later => earlier.companyId < later.companyId := by
  rw [mismatches_eq, List.pairwise_map]
  exact targets.ascending.filter _

/-- A greater tolerance forgives mismatches and adds none. -/
theorem Plan.mismatches_sublist
    (atLeast : tolerance ≤ greater) :
    (plan.mismatches greater targets).Sublist
      (plan.mismatches tolerance targets) := by
  rw [mismatches_eq, mismatches_eq]
  apply List.Sublist.map
  apply List.monotone_filter_right
  intro target missed
  exact decide_eq_true
    (Int.lt_of_le_of_lt atLeast (of_decide_eq_true missed))

end Mismatches

namespace ReferenceCase

variable
    {case_ : ReferenceCase}
    {strategy : Strategy}
    {tolerance greater : Int}
    {plan : Plan}

/-- A case with a plan is judged by it, with no tolerance below zero. -/
theorem check_of_plan
    (planned : strategy.plan case_.request = .ok plan)
    (tolerance : Int) :
    case_.check strategy tolerance =
      case_.judge (max tolerance 0) plan := by
  rw [check, planned]

/-- A case without a plan has failed. -/
theorem check_of_fault
    {fault : RequestFault}
    (turnedDown : strategy.plan case_.request = .error fault)
    (tolerance : Int) :
    case_.check strategy tolerance = case_.unplanned fault := by
  rw [check, turnedDown]

/-- A plan passes if its total and each target are within the tolerance. -/
theorem passed_judge_iff :
    (case_.judge tolerance plan).passed = true ↔
      Amount.distance plan.allocated case_.expectedTotal ≤ tolerance ∧
        plan.mismatches tolerance case_.targets = [] := by
  simp [judge]

/-- A plan for a case meets it exactly if no cut distance is beyond the tolerance. -/
theorem isMetBy_iff
    (planned : strategy.plan case_.request = .ok plan)
    (below : tolerance < Amount.greatest) :
    case_.IsMetBy tolerance plan ↔
      (case_.judge (max tolerance 0) plan).passed = true := by
  obtain ⟨valid, isPlan⟩ := Strategy.plan_eq_ok_iff.mp planned
  subst isPlan
  have belowGreatest := Amount.max_zero_lt_greatest below
  rw [passed_judge_iff, Plan.mismatches_eq_nil_iff,
    Amount.distance_le_iff belowGreatest]
  constructor
  · rintro ⟨total, amounts⟩
    refine ⟨total, ?_⟩
    intro target listed
    obtain ⟨actual, reserves, near⟩ := amounts target listed
    rw [(Strategy.reservesUnder_iff valid).mp reserves,
      Amount.distance_le_iff belowGreatest]
    exact near
  · rintro ⟨total, amounts⟩
    refine ⟨total, ?_⟩
    intro target listed
    exact
      ⟨_, (Strategy.reservesUnder_iff valid).mpr rfl,
        (Amount.distance_le_iff belowGreatest).mp
          (amounts target listed)⟩

/-- A case passes exactly if there is a plan and it meets the case. -/
theorem passed_check_iff
    (below : tolerance < Amount.greatest) :
    (case_.check strategy tolerance).passed = true ↔
      ∃ plan,
        strategy.plan case_.request = .ok plan ∧
          case_.IsMetBy tolerance plan := by
  cases planned : strategy.plan case_.request with
  | error fault =>
      simp [check_of_fault planned, unplanned]
  | ok plan =>
      rw [check_of_plan planned, ← isMetBy_iff planned below]
      simp

/-- The mismatches that a check lists are those of the plan. -/
theorem mem_mismatches_check_iff
    (below : tolerance < Amount.greatest)
    {mismatch : Mismatch} :
    mismatch ∈ (case_.check strategy tolerance).mismatches ↔
      ∃ plan,
        strategy.plan case_.request = .ok plan ∧
          mismatch.IsOf case_ tolerance plan := by
  cases planned : strategy.plan case_.request with
  | error fault =>
      simp [check_of_fault planned, unplanned]
  | ok plan =>
      obtain ⟨valid, isPlan⟩ := Strategy.plan_eq_ok_iff.mp planned
      subst isPlan
      have belowGreatest := Amount.max_zero_lt_greatest below
      rw [check_of_plan planned, judge, Plan.mem_mismatches_iff,
        Amount.lt_distance_iff belowGreatest,
        ← Strategy.reservesUnder_iff valid]
      constructor
      · rintro ⟨listed, reserves, beyond⟩
        exact ⟨_, rfl, listed, reserves, beyond⟩
      · rintro ⟨samePlan, isSame, listed, reserves, beyond⟩
        rw [Except.ok.injEq] at isSame
        subst isSame
        exact ⟨listed, reserves, beyond⟩

/-- A check lists its mismatches by ascending ids. -/
theorem mismatches_check_ascending
    (case_ : ReferenceCase)
    (strategy : Strategy)
    (tolerance : Int) :
    (case_.check strategy tolerance).mismatches.Pairwise
      fun earlier later => earlier.companyId < later.companyId := by
  cases planned : strategy.plan case_.request with
  | error fault =>
      rw [check_of_fault planned]
      exact .nil
  | ok plan =>
      rw [check_of_plan planned]
      exact Plan.mismatches_ascending

/-- With more tolerance a check lists some of the same mismatches. -/
theorem mismatches_check_sublist
    (case_ : ReferenceCase)
    (strategy : Strategy)
    (atLeast : tolerance ≤ greater) :
    (case_.check strategy greater).mismatches.Sublist
      (case_.check strategy tolerance).mismatches := by
  cases planned : strategy.plan case_.request with
  | error fault =>
      rw [check_of_fault planned, check_of_fault planned]
  | ok plan =>
      rw [check_of_plan planned, check_of_plan planned]
      exact Plan.mismatches_sublist (max_le_max_right 0 atLeast)

/-- A case that passes still does at a greater tolerance. -/
theorem passed_check_mono
    (atLeast : tolerance ≤ greater)
    (passed : (case_.check strategy tolerance).passed = true) :
    (case_.check strategy greater).passed = true := by
  have fewer := mismatches_check_sublist case_ strategy atLeast
  cases planned : strategy.plan case_.request with
  | error fault =>
      rw [check_of_fault planned] at passed
      cases passed
  | ok plan =>
      rw [check_of_plan planned] at passed ⊢
      rw [check_of_plan planned, check_of_plan planned] at fewer
      obtain ⟨total, noMismatch⟩ := passed_judge_iff.mp passed
      refine
        passed_judge_iff.mpr
          ⟨total.trans (max_le_max_right 0 atLeast), ?_⟩
      simp only [judge, noMismatch, List.sublist_nil] at fewer
      exact fewer

/-- A case that was taken from a plan passes at every tolerance. -/
theorem TakenFrom.passed_check
    (taken : case_.TakenFrom plan)
    (planned : strategy.plan case_.request = .ok plan)
    (tolerance : Int) :
    (case_.check strategy tolerance).passed = true := by
  obtain ⟨valid, isPlan⟩ := Strategy.plan_eq_ok_iff.mp planned
  have notNegative := Int.le_max_right tolerance 0
  rw [check_of_plan planned, passed_judge_iff,
    Plan.mismatches_eq_nil_iff, taken.total_eq, Amount.distance_self]
  refine ⟨notNegative, ?_⟩
  intro target listed
  obtain ⟨allocation, member, isTarget⟩ :=
    taken.targets_taken target listed
  have reserves :
      (strategy.planValid case_.request).ReservesUnder case_.request
        target.1 target.2 := by
    rw [isTarget]
    exact .listed (isPlan ▸ member) rfl
  rw [← isPlan, (Strategy.reservesUnder_iff valid).mp reserves,
    Amount.distance_self]
  exact notNegative

end ReferenceCase

namespace ReferenceReport

/-- Every outcome of a report passed or failed. -/
theorem passed_add_failed
    (report : ReferenceReport) :
    report.passed + report.failed = report.outcomes.length := by
  have atMost : report.passed ≤ report.outcomes.length :=
    List.countP_le_length
  rw [failed, Nat.add_sub_cancel' atMost]

/-- All cases have passed exactly if none has failed. -/
theorem allPassed_iff
    {report : ReferenceReport} :
    report.allPassed = true ↔ report.failed = 0 := by
  have counted := report.passed_add_failed
  have everyOne :
      report.passed = report.outcomes.length ↔
        ∀ outcome ∈ report.outcomes, outcome.passed = true :=
    List.countP_eq_length
  rw [allPassed, List.all_eq_true, ← everyOne]
  omega

end ReferenceReport

/--
The verdict on a case is the exact one below the greatest tolerance, and so are
its mismatches, in ascending order of their ids. At a greater tolerance no
passed case fails and no mismatch is added, and a case that was taken from the
plan itself passes at any. A report has the outcomes of its cases in order and
counts each of them once.
-/
theorem reference_checks_are_exact
    (strategy : Strategy) :
    (∀ (case_ : ReferenceCase) (tolerance : Int),
      tolerance < Amount.greatest →
      ((case_.check strategy tolerance).passed = true ↔
          ∃ plan,
            strategy.plan case_.request = .ok plan ∧
              case_.IsMetBy tolerance plan) ∧
        (∀ mismatch,
          mismatch ∈ (case_.check strategy tolerance).mismatches ↔
            ∃ plan,
              strategy.plan case_.request = .ok plan ∧
                mismatch.IsOf case_ tolerance plan) ∧
        (case_.check strategy tolerance).mismatches.Pairwise
          fun earlier later =>
            earlier.companyId < later.companyId) ∧
      (∀ (case_ : ReferenceCase) (tolerance greater : Int),
        tolerance ≤ greater →
        ((case_.check strategy tolerance).passed = true →
            (case_.check strategy greater).passed = true) ∧
          (case_.check strategy greater).mismatches.Sublist
            (case_.check strategy tolerance).mismatches) ∧
      (∀ (case_ : ReferenceCase) (plan : Plan),
        strategy.plan case_.request = .ok plan →
        case_.TakenFrom plan →
        ∀ tolerance,
          (case_.check strategy tolerance).passed = true) ∧
      ∀ (cases_ : List ReferenceCase) (tolerance : Int),
        (checkReferences strategy cases_ tolerance).outcomes =
            cases_.map (fun case_ => case_.check strategy tolerance) ∧
          (checkReferences strategy cases_ tolerance).passed +
              (checkReferences strategy cases_ tolerance).failed =
            cases_.length ∧
          ((checkReferences strategy cases_ tolerance).allPassed =
              true ↔
            (checkReferences strategy cases_ tolerance).failed = 0) := by
  refine ⟨?_, ?_, ?_, ?_⟩
  · intro case_ tolerance below
    exact
      ⟨ReferenceCase.passed_check_iff below,
        fun _ => ReferenceCase.mem_mismatches_check_iff below,
        case_.mismatches_check_ascending strategy tolerance⟩
  · intro case_ tolerance greater atLeast
    exact
      ⟨ReferenceCase.passed_check_mono atLeast,
        case_.mismatches_check_sublist strategy atLeast⟩
  · intro case_ plan planned taken
    exact taken.passed_check planned
  · intro cases_ tolerance
    have counted :=
      (checkReferences strategy cases_ tolerance).passed_add_failed
    refine
      ⟨rfl, counted.trans ?_, ReferenceReport.allPassed_iff⟩
    exact List.length_map _

/-- Three seed companies with amounts that their plan should come to. -/
def ReferenceCase.ofThreeSeeds
    (expectedTotal : Int)
    (targets : Targets) :
    ReferenceCase where
  name := "three seeds"
  request := Request.threeSeeds
  expectedTotal := expectedTotal
  targets := targets

/-- The first of three seed companies gets all of the capital. -/
theorem amounts_standard_threeSeeds :
    (Strategy.standard.planValid Request.threeSeeds).allocated = 900 ∧
      (Strategy.standard.planValid Request.threeSeeds).allocations.map
          (fun allocation =>
            (allocation.companyId, allocation.planned)) =
        [("a", 900), ("b", 0), ("c", 0)] := by
  simp only [Strategy.planValid, Plan.ofLedger, Strategy.standard,
    Strategy.finalLedger, Request.ledger, Request.accounts_eq_map,
    Request.ranked_threeSeeds]
  decide

/--
Amounts that are off by five in total and by seven for one company pass within
ten, though another one is unknown, and so within twelve. The least amount of
all is a mismatch within any tolerance below the greatest, and the amounts of
the plan itself pass below zero.
-/
theorem reference_checks_are_exact_threeSeeds :
    ((ReferenceCase.ofThreeSeeds 905
        ((Targets.empty.set "z" (-4)).set "a" 893)).check
          .standard 10).passed = true ∧
      ((ReferenceCase.ofThreeSeeds 905
        ((Targets.empty.set "z" (-4)).set "a" 893)).check
          .standard 12).passed = true ∧
      ⟨"a", Amount.least, 900⟩ ∈
        ((ReferenceCase.ofThreeSeeds 905
          (Targets.empty.set "a" Amount.least)).check
            .standard (Amount.greatest - 1)).mismatches ∧
      ((ReferenceCase.ofThreeSeeds 900
        ((Targets.empty.set "c" 0).set "a" 900)).check
          .standard (-3)).passed = true := by
  have planned :=
    Strategy.plan_of_valid Request.validate_threeSeeds .standard
  obtain ⟨total, amounts⟩ := amounts_standard_threeSeeds
  have inPlan
      (id : String)
      (amount : Int)
      (listed : (id, amount) ∈ [("a", 900), ("b", 0), ("c", 0)]) :
      ∃ allocation ∈
          (Strategy.standard.planValid Request.threeSeeds).allocations,
        (id, amount) = (allocation.companyId, allocation.planned) := by
    rw [← amounts] at listed
    obtain ⟨allocation, member, same⟩ := List.mem_map.mp listed
    exact ⟨allocation, member, same.symm⟩
  have firstReserves :
      (Strategy.standard.planValid
        Request.threeSeeds).ReservesUnder Request.threeSeeds "a" 900 := by
    obtain ⟨allocation, member, same⟩ := inPlan "a" 900 (by decide)
    rw [Prod.mk.injEq] at same
    rw [same.2]
    exact .listed member same.1.symm
  have unknownReserves :
      (Strategy.standard.planValid
        Request.threeSeeds).ReservesUnder Request.threeSeeds "z" 0 :=
    .unlisted (by decide)
  obtain ⟨verdict, forgives, ofItself, -⟩ :=
    reference_checks_are_exact .standard
  have passed :=
    (verdict
      (ReferenceCase.ofThreeSeeds 905
        ((Targets.empty.set "z" (-4)).set "a" 893)) 10
      (by decide)).1.mpr
      ⟨_, planned, {
        total := by
          rw [total]
          decide
        amounts := by
          have entries :
              ((Targets.empty.set "z" (-4)).set "a" 893).entries =
                [("a", 893), ("z", -4)] := by decide
          simp only [ReferenceCase.ofThreeSeeds, entries,
            List.forall_mem_cons]
          exact
            ⟨⟨900, firstReserves, by decide⟩,
              ⟨0, unknownReserves, by decide⟩,
              fun _ member => (List.not_mem_nil member).elim⟩
      }⟩
  refine
    ⟨passed, (forgives _ 10 12 (by decide)).1 passed, ?_, ?_⟩
  · exact
      (verdict
        (ReferenceCase.ofThreeSeeds 905
          (Targets.empty.set "a" Amount.least))
        (Amount.greatest - 1) (by decide)).2.1 _ |>.mpr
        ⟨_, planned, List.mem_singleton_self _, firstReserves,
          by decide⟩
  · refine
      ofItself
        (ReferenceCase.ofThreeSeeds 900
          ((Targets.empty.set "c" 0).set "a" 900)) _ planned
        ⟨total.symm, ?_⟩ (-3)
    have entries :
        ((Targets.empty.set "c" 0).set "a" 900).entries =
          [("a", 900), ("c", 0)] := by decide
    simp only [ReferenceCase.ofThreeSeeds, entries,
      List.forall_mem_cons]
    exact
      ⟨inPlan "a" 900 (by decide), inPlan "c" 0 (by decide),
        fun _ member => (List.not_mem_nil member).elim⟩

end FollowOn

import FollowOn.Proofs.FinalLedger
import FollowOn.Proofs.Ledger.Marks
import Mathlib.Data.List.ReduceOption

namespace FollowOn

/-!
# Reasons tell the truth

The reason of an allocation is put together at the very end, from the settled
mark, the mark of the last pass and the pool. It still says what happened: a
company at its cap shows the bound that gave the cap; any other one was below
the minimum with nothing, or the capital ran out, or the remainder passes did.
The reasons of caps and those of a shortage have nothing in common, so the
reason alone tells the outcome.
-/

/-- How a company comes out of a plan. -/
inductive Outcome where
  /-- It has all that its cap allows. -/
  | full
  /-- It has nothing, since its first check would have been too small. -/
  | belowMinimum
  /-- It is short of its cap, since the capital ran out. -/
  | outOfCapital
  /-- It is short of its cap, since no pass was left. -/
  | outOfPasses
deriving Repr, DecidableEq

/-- The outcome that a reason tells. -/
def Reason.outcome : Reason → Outcome
  | .belowMinimum => .belowMinimum
  | .capitalExhausted => .outOfCapital
  | .passLimit => .outOfPasses
  | _ => .full

/-- What an outcome says about the allocation of a company in a plan. -/
def Outcome.Explains
    (strategy : Strategy)
    (request : Request)
    (plan : Plan)
    (company : Company)
    (allocation : Allocation) :
    Outcome → Prop
  | .full =>
      allocation.planned = allocation.cap ∧
        allocation.reason = (request.capOf company).reason
  | .belowMinimum =>
      allocation.reason = .belowMinimum ∧
        allocation.planned = 0 ∧
        0 < allocation.cap ∧
        ∃ least,
          request.constraints.minReserve = some least ∧ 0 < least
  | .outOfCapital =>
      allocation.reason = .capitalExhausted ∧
        plan.remaining = 0 ∧
        allocation.planned < allocation.cap
  | .outOfPasses =>
      allocation.reason = .passLimit ∧
        0 < plan.remaining ∧
        0 < allocation.planned ∧
        allocation.planned < allocation.cap ∧
        ∃ settings : Settings,
          strategy = .constrained settings ∧
            settings.sharing = .evenShare ∧
            plan.summary.passes = 1 + settings.remainderPasses

/-- Each bound has a reason that says the cap was reached. -/
theorem outcome_reason_of_bound
    {company : Company}
    {policy : Option StagePolicy}
    {constraints : Constraints}
    {available : Int}
    {bound : Bound}
    (member :
      bound ∈
        optionalBounds company constraints available ++
          [stageBound company policy]) :
    bound.reason.outcome = .full := by
  rcases List.mem_append.mp member with isOptional | isStage
  · simp only [optionalBounds, List.reduceOption_mem_iff,
      List.mem_cons, List.not_mem_nil, or_false] at isOptional
    rcases isOptional with explicit | greatest | share
    · obtain ⟨_, -, same⟩ := Option.map_eq_some_iff.mp explicit.symm
      rw [← same]
      rfl
    · obtain ⟨_, -, same⟩ := Option.map_eq_some_iff.mp greatest.symm
      rw [← same]
      rfl
    · obtain ⟨_, -, same⟩ := Option.map_eq_some_iff.mp share.symm
      rw [← same]
      rfl
  · rw [List.mem_singleton.mp isStage]
    simp only [stageBound]
    split <;> rfl

/-- The reason of a cap never tells a shortage. -/
theorem outcome_reason_evaluateCap
    (company : Company)
    (policy : Option StagePolicy)
    (constraints : Constraints)
    (available : Int) :
    (evaluateCap company policy constraints
      available).reason.outcome = .full := by
  simp only [evaluateCap]
  split
  · rfl
  · exact outcome_reason_of_bound (tightest_mem ..)

/-- The reason of an allocation tells the outcome that explains it. -/
theorem Outcome.Explains.outcome_reason_eq
    {strategy : Strategy}
    {request : Request}
    {plan : Plan}
    {company : Company}
    {allocation : Allocation}
    {outcome : Outcome}
    (explains :
      outcome.Explains strategy request plan company allocation) :
    allocation.reason.outcome = outcome := by
  cases outcome with
  | full =>
      rw [explains.2]
      exact outcome_reason_evaluateCap ..
  | belowMinimum =>
      rw [explains.1]
      rfl
  | outOfCapital =>
      rw [explains.1]
      rfl
  | outOfPasses =>
      rw [explains.1]
      rfl

/-- The allocation that an account stands for when `pool` is left. -/
def Account.allocation
    (pool : Int)
    (account : Account) :
    Allocation where
  companyId := account.companyId
  planned := account.granted
  cap := account.cap
  reason := account.reason pool
  pass := account.lastPaid
  policyDefaulted := account.policyDefaulted

/-- Each record is made of one account and the pool that is left. -/
theorem Ledger.allocations_eq_map
    (ledger : Ledger) :
    ledger.allocations =
      ledger.accounts.map (Account.allocation ledger.pool) := rfl

namespace Strategy

variable
    {strategy : Strategy}
    {request : Request}
    {account : Account}

/-- At the end of every strategy the marks of the accounts hold. -/
theorem marksHold_finalLedger
    (strategy : Strategy)
    (request : Request) :
    (strategy.finalLedger request).MarksHold := by
  obtain ⟨before, sound, pass⟩ :=
    exists_passesTo_finalLedger strategy request
  exact pass.marksHold sound

/--
An account that is short of its cap without a mark, while capital remains, was
paid in even shares, and no pass was left.
-/
theorem usedUp_of_unmarked
    (member : account ∈ (strategy.finalLedger request).accounts)
    (belowCap : account.granted < account.cap)
    (unmarked : account.belowMinimum = false)
    (hasPool : 0 < (strategy.finalLedger request).pool) :
    0 < account.granted ∧
      ∃ settings : Settings,
        strategy = .constrained settings ∧
          settings.sharing = .evenShare ∧
          (strategy.finalLedger request).passes =
            1 + settings.remainderPasses := by
  have sound := (continues_finalLedger strategy request).sound
  have notNegative :=
    (sound.accounts_sound account member).granted_nonneg
  have marks := marksHold_finalLedger strategy request
  have active : ¬(strategy.finalLedger request).AtRest := by
    -- At rest only a first check below the minimum keeps the account
    -- from its cap, and the last pass marks such an account.
    intro resting
    rcases sound.full_or_belowMinimum_of_atRest resting hasPool
        member with full | ⟨unpaid, tooSmall⟩
    · omega
    · have passedOver : account.IsPassedOver :=
        ⟨unpaid, by omega, unmarked⟩
      have nothingLeft := marks.passedOver account member passedOver
      omega
  cases strategy with
  | proRata settings =>
      have greedy : (Strategy.proRata settings).EndsGreedily := trivial
      exact (active (greedy.atRest_finalLedger request)).elim
  | constrained settings =>
      refine ⟨?_, settings, rfl, ?_, ?_⟩
      · by_contra notPaid
        have passedOver : account.IsPassedOver :=
          ⟨by omega, by omega, unmarked⟩
        obtain ⟨before, beforeSound, same⟩ :=
          exists_runPass_eq_finalLedger settings request
        rw [same] at member hasPool
        have empty :=
          Ledger.pool_eq_zero_of_passedOver_runPass beforeSound
            member passedOver
        omega
      · cases sharing : settings.sharing with
        | evenShare =>
            rfl
        | greedy =>
            have greedy :
                (Strategy.constrained settings).EndsGreedily := sharing
            exact (active (greedy.atRest_finalLedger request)).elim
      · rcases atRest_or_passes_finalLedger settings request with
          resting | usedUp
        · exact (active resting).elim
        · exact usedUp

/-- Some outcome explains the allocation of each account of the final ledger. -/
theorem exists_explains
    (member : account ∈ (strategy.finalLedger request).accounts)
    {company : Company}
    (capReason :
      account.capReason = (request.capOf company).reason) :
    ∃ outcome : Outcome,
      outcome.Explains strategy request (strategy.planValid request)
        company
        (account.allocation (strategy.finalLedger request).pool) := by
  have sound := (continues_finalLedger strategy request).sound
  have accountSound := sound.accounts_sound account member
  by_cases settled : account.settled = true
  · refine ⟨.full, accountSound.settled_iff.mp settled, ?_⟩
    simpa [Account.allocation, Account.reason, settled] using capReason
  have belowCap : account.granted < account.cap := by
    have bounded := accountSound.granted_le_cap
    have notFull := mt accountSound.settled_iff.mpr settled
    omega
  by_cases marked : account.belowMinimum = true
  · obtain ⟨unpaid, hasMinimum⟩ :=
      (marksHold_finalLedger strategy request).unpaid account member
        marked
    have capPositive : 0 < account.cap := by
      omega
    rw [minimum_finalLedger] at hasMinimum
    refine
      ⟨.belowMinimum, ?_, unpaid, capPositive, request.minimum,
        Request.minReserve_eq_of_minimum_pos hasMinimum, hasMinimum⟩
    simp [Account.allocation, Account.reason, settled, marked]
  rcases Int.lt_or_eq_of_le sound.pool_nonneg with hasPool | empty
  · obtain ⟨paid, usedUp⟩ :=
      usedUp_of_unmarked member belowCap
        (eq_false_of_ne_true marked) hasPool
    refine ⟨.outOfPasses, ?_, hasPool, paid, belowCap, usedUp⟩
    simp [Account.allocation, Account.reason, settled, marked,
      Int.ne_of_gt hasPool]
  · refine ⟨.outOfCapital, ?_, empty.symm, belowCap⟩
    simp [Account.allocation, Account.reason, settled, marked,
      empty.symm]

/-- Exactly one outcome explains the allocation of each company. -/
theorem forall₂_explains
    (strategy : Strategy)
    (request : Request) :
    List.Forall₂
      (fun company allocation =>
        allocation.companyId = company.id ∧
          allocation.cap = (request.capOf company).amount ∧
          ∃! outcome : Outcome,
            outcome.Explains strategy request
              (strategy.planValid request) company allocation)
      (ranked request.companies)
      (strategy.planValid request).allocations := by
  change List.Forall₂ _ _ (strategy.finalLedger request).allocations
  rw [Ledger.allocations_eq_map, List.forall₂_map_right_iff]
  refine (forall₂_terms_finalLedger strategy request).imp ?_
  rintro company account ⟨member, terms⟩
  injection terms with sameId sameCap sameReason _
  have cap : account.cap = (request.capOf company).amount :=
    sameCap.trans (Request.cap_opened_capOf request company)
  obtain ⟨outcome, explains⟩ := exists_explains member sameReason
  refine ⟨sameId, cap, outcome, explains, ?_⟩
  intro other otherExplains
  exact otherExplains.outcome_reason_eq.symm.trans
    explains.outcome_reason_eq

/--
In every plan for a valid request exactly one outcome explains the allocation
of each company. Plans that end greedily never run out of passes.
-/
theorem plan_reasons_tell_truth
    (valid : request.validate = .ok ())
    (strategy : Strategy) :
    ∃ plan,
      strategy.plan request = .ok plan ∧
        List.Forall₂
          (fun company allocation =>
            allocation.companyId = company.id ∧
              allocation.cap = (request.capOf company).amount ∧
              ∃! outcome : Outcome,
                outcome.Explains strategy request plan company
                  allocation)
          (ranked request.companies)
          plan.allocations ∧
        (strategy.EndsGreedily →
          ∀ allocation ∈ plan.allocations,
            allocation.reason ≠ .passLimit) := by
  have explained := forall₂_explains strategy request
  refine
    ⟨strategy.planValid request, plan_of_valid valid strategy,
      explained, ?_⟩
  intro greedy allocation member isPassLimit
  obtain ⟨company, -, -, -, outcome, explains, -⟩ :=
    exists_mem_left_of_forall₂ explained member
  have told := explains.outcome_reason_eq
  rw [isPassLimit] at told
  subst told
  obtain ⟨-, -, -, -, settings, isConstrained, even, -⟩ := explains
  subst isConstrained
  have bothRules : SharingRule.greedy = .evenShare :=
    Eq.trans (Eq.symm greedy) even
  cases bothRules

/--
Without remainder passes, even shares leave two of three seed companies out of
passes; in proportion, one of them is held back for the minimum.
-/
theorem plan_reasons_tell_truth_threeSeeds :
    (∃ plan,
        (Strategy.constrained ⟨0, 1, .evenShare⟩).plan
            Request.threeSeeds = .ok plan ∧
          plan.allocations.map Allocation.reason =
            [.passLimit, .stageMultiple, .passLimit] ∧
          List.Forall₂
            (fun company allocation =>
              ∃! outcome : Outcome,
                outcome.Explains
                  (.constrained ⟨0, 1, .evenShare⟩)
                  Request.threeSeeds plan company allocation)
            (ranked Request.threeSeeds.companies)
            plan.allocations) ∧
      ∃ plan,
        (Strategy.proRata Settings.standard).plan
            Request.threeSeeds = .ok plan ∧
          plan.allocations.map Allocation.reason =
            [.capitalExhausted, .belowMinimum, .capitalExhausted] ∧
          ∀ allocation ∈ plan.allocations,
            allocation.reason ≠ .passLimit := by
  refine ⟨?_, ?_⟩
  · obtain ⟨plan, planned, explained, -⟩ :=
      plan_reasons_tell_truth Request.validate_threeSeeds
        (.constrained ⟨0, 1, .evenShare⟩)
    refine ⟨plan, planned, ?_, ?_⟩
    · rw [← (plan_eq_ok_iff.mp planned).2]
      simp only [planValid, Plan.ofLedger, finalLedger,
        Request.ledger, Request.accounts_eq_map, Request.ranked_threeSeeds]
      decide
    · refine explained.imp ?_
      rintro company allocation ⟨-, -, explains⟩
      exact explains
  · obtain ⟨plan, planned, -, neverOutOfPasses⟩ :=
      plan_reasons_tell_truth Request.validate_threeSeeds
        (.proRata Settings.standard)
    refine ⟨plan, planned, ?_, neverOutOfPasses trivial⟩
    rw [← (plan_eq_ok_iff.mp planned).2]
    simp only [planValid, Plan.ofLedger, finalLedger,
      Request.ledger, Request.accounts_eq_map, Request.weights_eq_map,
      Request.ranked_threeSeeds]
    decide

end Strategy

end FollowOn

import FollowOn.Comparison
import FollowOn.Proofs.Conservation
import Mathlib.Algebra.Order.BigOperators.Group.List

namespace FollowOn

/-!
# No capital is left idle

A strategy that ends greedily, or whose remainder passes do not use up their
limit, ends with a ledger at rest. So if capital remains, each company is at
its cap, or has nothing because what it could take is below the least reserve.
Without a least reserve the split decides only who is paid: the total is the
available capital or all caps together, whichever is less.
-/

namespace Ledger

/-- Without a minimum, a ledger at rest has granted its capital or all caps. -/
theorem Sound.allocatedTotal_of_atRest
    {ledger : Ledger}
    (sound : ledger.Sound)
    (resting : ledger.AtRest)
    (noMinimum : ledger.minimum = 0) :
    ledger.allocatedTotal =
      min ledger.capital (ledger.accounts.map Account.cap).sum := by
  have withinCaps :
      ledger.allocatedTotal ≤
        (ledger.accounts.map Account.cap).sum :=
    List.sum_le_sum fun account member =>
      (sound.accounts_sound account member).granted_le_cap
  have notNegative := sound.pool_nonneg
  unfold capital
  rcases Int.lt_or_eq_of_le notNegative with hasPool | empty
  · have allFull :
        ledger.accounts.map Account.granted =
          ledger.accounts.map Account.cap := by
      apply List.map_congr_left
      intro account member
      have accountSound := sound.accounts_sound account member
      rcases sound.full_or_belowMinimum_of_atRest resting hasPool
          member with full | ⟨unpaid, tooSmall⟩
      · exact full
      · have bounded := accountSound.granted_le_cap
        omega
    have total :
        ledger.allocatedTotal =
          (ledger.accounts.map Account.cap).sum :=
      congrArg List.sum allFull
    omega
  · omega

end Ledger

/-- No capital remains, or what remains is below every first check still to come. -/
def Plan.LeavesNothingIdle
    (minReserve : Option Int)
    (plan : Plan) : Prop :=
  plan.remaining = 0 ∨
    ∀ allocation ∈ plan.allocations,
      allocation.planned < allocation.cap →
        allocation.planned = 0 ∧
          ∃ least,
            minReserve = some least ∧
              0 < least ∧
              min allocation.cap plan.remaining < least

namespace Strategy

variable
    {request : Request}

/-- The caps of the accounts add up to those of the request. -/
theorem sum_caps_finalLedger
    (strategy : Strategy)
    (request : Request) :
    ((strategy.finalLedger request).accounts.map Account.cap).sum =
      (request.caps.map Cap.amount).sum := by
  have capOfTerms : Account.cap = Account.Terms.cap ∘ Account.terms :=
    rfl
  have sameCaps :
      (strategy.finalLedger request).accounts.map Account.cap =
        (ranked request.companies).map fun company =>
          (request.capOf company).amount := by
    rw [capOfTerms, ← List.map_map,
      (continues_finalLedger strategy request).map_terms_eq,
      accounts_openingLedger, List.map_map, ← capOfTerms,
      Request.accounts_eq_map, List.map_map]
    apply List.map_congr_left
    intro company _
    exact Request.cap_opened_capOf request company
  rw [sameCaps, Request.caps, List.map_map]
  exact ((ranked_perm request.companies).map _).sum_eq

/-- At rest, the plan of a strategy leaves nothing idle. -/
theorem leavesNothingIdle_planValid
    {strategy : Strategy}
    (resting : (strategy.finalLedger request).AtRest) :
    (strategy.planValid request).LeavesNothingIdle
      request.constraints.minReserve := by
  have sound := (continues_finalLedger strategy request).sound
  rcases Int.lt_or_eq_of_le sound.pool_nonneg with hasPool | empty
  · refine Or.inr ?_
    intro allocation member belowCap
    obtain ⟨account, inLedger, same⟩ := List.mem_map.mp member
    rw [← same] at belowCap ⊢
    simp only at belowCap ⊢
    rcases sound.full_or_belowMinimum_of_atRest resting hasPool
        inLedger with full | ⟨unpaid, tooSmall⟩
    · omega
    · rw [minimum_finalLedger] at tooSmall
      have capPositive : 0 < account.cap := by omega
      have minimumPositive : 0 < request.minimum := by omega
      exact ⟨unpaid, request.minimum,
        Request.minReserve_eq_of_minimum_pos minimumPositive,
        minimumPositive, tooSmall⟩
  · exact Or.inl empty.symm

/-- At rest and without a least reserve, a plan spends all it may. -/
theorem allocated_planValid_of_atRest
    {strategy : Strategy}
    (valid : request.validate = .ok ())
    (resting : (strategy.finalLedger request).AtRest)
    (noMinimum : request.minimum = 0) :
    (strategy.planValid request).allocated =
      min request.available (request.caps.map Cap.amount).sum := by
  have sound := (continues_finalLedger strategy request).sound
  have total :=
    sound.allocatedTotal_of_atRest resting
      (minimum_finalLedger.trans noMinimum)
  rw [capital_finalLedger valid, sum_caps_finalLedger] at total
  rw [← total]
  exact Ledger.totalPlanned_allocations _

/--
A plan that was made greedily, or by even shares with passes to spare, leaves
nothing idle. Without a positive least reserve all strategies that end
greedily allocate the available capital or all caps, whichever is less, so
comparing two of them finds no difference in total.
-/
theorem plan_leavesNothingIdle
    (valid : request.validate = .ok ()) :
    (∀ strategy : Strategy,
      strategy.EndsGreedily →
      ∃ plan,
        strategy.plan request = .ok plan ∧
          plan.LeavesNothingIdle request.constraints.minReserve) ∧
      (∀ settings : Settings,
        settings.sharing = .evenShare →
        ∃ plan,
          (Strategy.constrained settings).plan request = .ok plan ∧
            (plan.summary.passes ≤ settings.remainderPasses →
              plan.LeavesNothingIdle
                request.constraints.minReserve)) ∧
      ((∀ least,
          request.constraints.minReserve = some least → least ≤ 0) →
        ∀ primary shadow : Strategy,
          primary.EndsGreedily →
          shadow.EndsGreedily →
          ∃ comparison,
            compareStrategies primary shadow request =
                .ok comparison ∧
              primary.plan request = .ok comparison.primary ∧
              shadow.plan request = .ok comparison.shadow ∧
              comparison.primary.allocated =
                min request.available
                  (request.caps.map Cap.amount).sum ∧
              comparison.shadow.allocated =
                min request.available
                  (request.caps.map Cap.amount).sum ∧
              comparison.totalDelta = 0) := by
  refine ⟨?_, ?_, ?_⟩
  · intro strategy greedy
    exact ⟨strategy.planValid request,
      plan_of_valid valid strategy,
      leavesNothingIdle_planValid
        (greedy.atRest_finalLedger request)⟩
  · intro settings _
    refine ⟨(Strategy.constrained settings).planValid request,
      plan_of_valid valid _, ?_⟩
    intro passesToSpare
    rcases atRest_or_passes_finalLedger settings request with
      resting | usedUp
    · exact leavesNothingIdle_planValid resting
    · have passes :
          ((Strategy.constrained settings).planValid
            request).summary.passes =
              1 + settings.remainderPasses := usedUp
      omega
  · intro unset primary shadow primaryGreedy shadowGreedy
    have noMinimum := Request.minimum_eq_zero unset
    have primaryTotal :=
      allocated_planValid_of_atRest valid
        (primaryGreedy.atRest_finalLedger request) noMinimum
    have shadowTotal :=
      allocated_planValid_of_atRest valid
        (shadowGreedy.atRest_finalLedger request) noMinimum
    refine
      ⟨_, compareStrategies_eq_ok valid primary shadow,
        plan_of_valid valid primary,
        plan_of_valid valid shadow,
        primaryTotal, shadowTotal, ?_⟩
    have noDelta :
        (shadow.planValid request).allocated -
            (primary.planValid request).allocated = 0 := by
      rw [primaryTotal, shadowTotal, Int.sub_self]
    exact noDelta

/-- By even shares three seed companies need one of three remainder passes. -/
theorem plan_leavesNothingIdle_threeSeeds :
    (∃ plan,
        (Strategy.proRata Settings.standard).plan
            Request.threeSeeds = .ok plan ∧
          plan.LeavesNothingIdle (some 50)) ∧
      (∃ plan,
        (Strategy.constrained ⟨3, 1, .evenShare⟩).plan
            Request.threeSeeds = .ok plan ∧
          plan.summary.passes ≤ 3 ∧
          plan.LeavesNothingIdle (some 50)) ∧
      ∃ comparison,
        compareStrategies Strategy.standard
            (.proRata Settings.standard)
            { Request.threeSeeds with
                constraints := Constraints.none } =
              .ok comparison ∧
          comparison.primary.allocated = 900 ∧
          comparison.totalDelta = 0 := by
  obtain ⟨greedily, evenly, -⟩ :=
    plan_leavesNothingIdle Request.validate_threeSeeds
  refine ⟨greedily (.proRata Settings.standard) trivial, ?_, ?_⟩
  · obtain ⟨plan, planned, leaves⟩ := evenly ⟨3, 1, .evenShare⟩ rfl
    have passes : plan.summary.passes = 2 := by
      rw [← (plan_eq_ok_iff.mp planned).2]
      simp only [planValid, Plan.ofLedger, finalLedger,
        Request.ledger, Request.accounts_eq_map, Request.ranked_threeSeeds]
      decide
    have spare : plan.summary.passes ≤ 3 := by
      rw [passes]
      decide
    exact ⟨plan, planned, spare, leaves spare⟩
  · have valid :
        Request.validate
            { Request.threeSeeds with
                constraints := Constraints.none } =
          .ok () := rfl
    have unset :
        ∀ least, Constraints.none.minReserve = some least → least ≤ 0 := by
      intro least set
      cases set
    obtain ⟨-, -, compared⟩ := plan_leavesNothingIdle valid
    obtain ⟨comparison, isCompared, -, -, primaryTotal, -, noDelta⟩ :=
      compared unset Strategy.standard (.proRata Settings.standard)
        rfl trivial
    exact ⟨comparison, isCompared, primaryTotal, noDelta⟩

end Strategy

end FollowOn

import FollowOn.Proofs.Ledger.Precedence
import FollowOn.Proofs.Lookup

namespace FollowOn

/-!
# Plans respect the ranking

The constrained strategy runs passes by its rule of sharing only, and each of
them keeps every account ahead of all later ones. So a company never receives
more than one that is ranked ahead of it, unless the latter is at its cap or
its cap is below the least reserve.
-/

namespace Strategy

variable
    {request : Request}

/-- A ledger that has granted nothing respects the ranking. -/
theorem respectsRanking_openingLedger
    (strategy : Strategy)
    (request : Request) :
    (strategy.openingLedger request).RespectsRanking := by
  have sound := sound_openingLedger strategy request
  refine List.Pairwise.imp_of_mem ?_
    (List.pairwise_of_forall fun _ _ => trivial)
  intro first second firstMember secondMember _ _
  have firstNotNegative :=
    (sound.accounts_sound first firstMember).granted_nonneg
  rw [accounts_openingLedger] at secondMember
  have secondUnpaid :=
    Request.granted_eq_zero_of_mem_accounts secondMember
  unfold Account.KeepsAheadOf
  omega

/-- The constrained strategy ends with a ledger that respects the ranking. -/
theorem respectsRanking_finalLedger
    (settings : Settings)
    (request : Request) :
    ((Strategy.constrained settings).finalLedger
      request).RespectsRanking := by
  have opening :=
    respectsRanking_openingLedger (.constrained settings) request
  have openingSound :=
    sound_openingLedger (.constrained settings) request
  refine
    (Ledger.redistribute_induction
      (motive := fun ledger =>
        ledger.Sound ∧ ledger.RespectsRanking)
      ?_
      ⟨Ledger.PassesTo.shared.sound openingSound,
        opening.runPass openingSound⟩
      settings.remainderPasses).2
  rintro ledger ⟨sound, respects⟩
  exact ⟨Ledger.PassesTo.shared.sound sound, respects.runPass sound⟩

/--
In every plan of the constrained strategy for a valid request, a company whose
cap allows a first check receives at least what any lower-ranked company
receives, or all of its cap.
-/
theorem plan_respects_ranking
    (valid : request.validate = .ok ())
    (settings : Settings) :
    ∃ plan,
      (Strategy.constrained settings).plan request = .ok plan ∧
        ∀ higher ∈ request.companies,
          ∀ lower ∈ request.companies,
            higher.comparePriority lower = .lt →
            (∀ least,
              request.constraints.minReserve = some least →
              0 < least →
              least ≤ (request.capOf higher).amount) →
            ∃ first second,
              plan.Reserves request higher first ∧
                plan.Reserves request lower second ∧
                min (request.capOf higher).amount second.planned ≤
                  first.planned := by
  refine
    ⟨(Strategy.constrained settings).planValid request,
      plan_of_valid valid _, ?_⟩
  intro higher higherMember lower lowerMember ahead checkFits
  have minimumFits : request.minimum ≤ (request.capOf higher).amount := by
    rcases lt_or_ge 0 request.minimum with positive | none
    · exact checkFits request.minimum
        (Request.minReserve_eq_of_minimum_pos positive) positive
    · exact none.trans (evaluateCap_amount_nonneg ..)
  have respects :
      ((Strategy.constrained settings).planValid
        request).allocations.Pairwise fun first second =>
          request.minimum ≤ first.cap →
            min first.cap second.planned ≤ first.planned := by
    have atEnd := respectsRanking_finalLedger settings request
    unfold Ledger.RespectsRanking at atEnd
    rw [minimum_finalLedger] at atEnd
    exact List.pairwise_map.mpr atEnd
  obtain ⟨first, firstMember, second, secondMember,
      ⟨firstId, firstCap⟩, ⟨secondId, secondCap⟩, keepsAhead⟩ :=
    exists_pair_of_forall₂
      (forall₂_allocations (.constrained settings) request)
      (ranked_pairwise (Request.distinct_ids_of_validate valid))
      (fun _ _ => Company.comparePriority_asymm) respects
      ((ranked_perm request.companies).mem_iff.mpr higherMember)
      ((ranked_perm request.companies).mem_iff.mpr lowerMember) ahead
  rw [firstCap] at keepsAhead
  exact ⟨first, second,
    reserves_of_mem valid firstMember firstId firstCap,
    reserves_of_mem valid secondMember secondId secondCap,
    keepsAhead minimumFits⟩

/--
By even shares, the first of three seed companies is not behind the third one,
though the capital does not reach the cap of either.
-/
theorem plan_respects_ranking_threeSeeds :
    ∃ plan,
      (Strategy.constrained ⟨1, 1, .evenShare⟩).plan
          Request.threeSeeds = .ok plan ∧
        plan.allocations.map Allocation.planned = [400, 100, 400] ∧
        ∃ first second,
          plan.Reserves Request.threeSeeds
              ⟨"a", "Alpha", "seed", 1000, ⟨5000000⟩, none⟩ first ∧
            plan.Reserves Request.threeSeeds
              ⟨"c", "Gamma", "growth", 1000, ⟨3000000⟩, some 800⟩
              second ∧
            min 1000 second.planned ≤ first.planned := by
  obtain ⟨plan, planned, respects⟩ :=
    plan_respects_ranking Request.validate_threeSeeds
      ⟨1, 1, .evenShare⟩
  refine ⟨plan, planned, ?_, ?_⟩
  · rw [← (plan_eq_ok_iff.mp planned).2]
    simp only [planValid, Plan.ofLedger, finalLedger,
      Request.ledger, Request.accounts_eq_map, Request.ranked_threeSeeds]
    decide
  · refine respects
      ⟨"a", "Alpha", "seed", 1000, ⟨5000000⟩, none⟩
      (by simp [Request.threeSeeds])
      ⟨"c", "Gamma", "growth", 1000, ⟨3000000⟩, some 800⟩
      (by simp [Request.threeSeeds]) rfl ?_
    intro least set _
    injection set with same
    subst same
    decide

end Strategy

end FollowOn

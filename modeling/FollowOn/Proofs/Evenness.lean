import FollowOn.Proofs.Ledger.Evenness
import FollowOn.Proofs.Lookup

namespace FollowOn

/-!
# Plans share evenly

Without a least reserve, every pass by even shares of the constrained strategy
keeps the ledger even, however many there are. So nobody is ahead of a company
below its cap by more than one unit for each other company: the units do not
add up over the passes.
-/

namespace Strategy

variable
    {request : Request}

/-- A strategy starts with equal amounts for all: nothing. -/
theorem isEven_openingLedger
    (strategy : Strategy)
    (request : Request) :
    (strategy.openingLedger request).IsEven := by
  refine Or.inl ⟨0, ?_⟩
  intro account member
  rw [accounts_openingLedger] at member
  have unpaid := Request.granted_eq_zero_of_mem_accounts member
  omega

/-- The constrained strategy by even shares ends with an even ledger if there is no minimum. -/
theorem isEven_finalLedger
    {settings : Settings}
    (noMinimum : request.minimum = 0)
    (evenly : settings.sharing = .evenShare) :
    ((Strategy.constrained settings).finalLedger request).IsEven := by
  have openingSound :=
    sound_openingLedger (.constrained settings) request
  have runPass :
      ∀ ledger : Ledger,
        Ledger.Continues
            ((Strategy.constrained settings).openingLedger request)
            ledger ∧
          ledger.IsEven →
        Ledger.Continues
            ((Strategy.constrained settings).openingLedger request)
            ledger.runPass.1 ∧
          ledger.runPass.1.IsEven := by
    rintro ledger ⟨continues, even⟩
    have sameMinimum := continues.minimum_eq
    rw [minimum_openingLedger, noMinimum] at sameMinimum
    exact ⟨continues.pass .shared,
      even.runPass continues.sound sameMinimum
        (continues.sharing_eq.trans evenly)⟩
  exact
    (Ledger.redistribute_induction runPass
      (runPass _ ⟨openingSound.continues, isEven_openingLedger ..⟩)
      settings.remainderPasses).2

/--
In every plan of the constrained strategy by even shares for a valid request
without a least reserve, no company receives more than one that is left below
its cap, by more than one unit for each other company.
-/
theorem plan_shares_evenly
    (valid : request.validate = .ok ())
    (noMinimum :
      ∀ least,
        request.constraints.minReserve = some least → least ≤ 0)
    {settings : Settings}
    (evenly : settings.sharing = .evenShare) :
    ∃ plan,
      (Strategy.constrained settings).plan request = .ok plan ∧
        ∀ ahead ∈ request.companies,
          ∀ behind ∈ request.companies,
            ∃ first second,
              plan.Reserves request ahead first ∧
                plan.Reserves request behind second ∧
                (second.planned < (request.capOf behind).amount →
                  first.planned ≤
                    second.planned +
                      (request.companies.length - 1)) := by
  refine
    ⟨(Strategy.constrained settings).planValid request,
      plan_of_valid valid _, ?_⟩
  intro ahead aheadMember behind behindMember
  have even :=
    isEven_finalLedger (Request.minimum_eq_zero noMinimum) evenly
  have sameLength :=
    (forall₂_terms_finalLedger
      (.constrained settings) request).length_eq
  rw [(ranked_perm request.companies).length_eq] at sameLength
  obtain ⟨first, firstMember, firstReserves⟩ :=
    exists_reserves valid (.constrained settings) aheadMember
  obtain ⟨second, secondMember, secondReserves⟩ :=
    exists_reserves valid (.constrained settings) behindMember
  refine ⟨first, second, firstReserves, secondReserves, ?_⟩
  intro belowCap
  rw [← secondReserves.cap_eq] at belowCap
  obtain ⟨firstAccount, firstInLedger, isFirst⟩ :=
    List.mem_map.mp firstMember
  obtain ⟨secondAccount, secondInLedger, isSecond⟩ :=
    List.mem_map.mp secondMember
  subst isFirst isSecond
  rw [sameLength]
  exact even.granted_le firstInLedger secondInLedger belowCap

/--
The first and the third of three seed companies share what the second cannot
take. Both stay below their caps, and the odd unit goes to the first.
-/
theorem plan_shares_evenly_threeSeeds :
    ∃ plan,
      (Strategy.constrained ⟨2, 1, .evenShare⟩).plan
          { Request.threeSeeds with
            available := 901
            constraints := Constraints.none } = .ok plan ∧
        plan.allocations.map Allocation.planned = [401, 100, 400] ∧
        plan.plannedFor "a" ≤ plan.plannedFor "c" + (3 - 1) := by
  have valid :
      Request.validate
        { Request.threeSeeds with
          available := 901
          constraints := Constraints.none } = .ok () := rfl
  have evenly :
      (⟨2, 1, .evenShare⟩ : Settings).sharing = .evenShare := rfl
  obtain ⟨plan, planned, even⟩ :=
    plan_shares_evenly valid (by simp [Constraints.none]) evenly
  have amounts :
      plan.allocations.map Allocation.planned = [401, 100, 400] ∧
        plan.plannedFor "c" = 400 := by
    rw [← (plan_eq_ok_iff.mp planned).2]
    simp only [planValid, Plan.ofLedger, finalLedger,
      Request.ledger, Request.accounts_eq_map, Request.ranked_threeSeeds]
    decide
  refine ⟨plan, planned, amounts.1, ?_⟩
  obtain ⟨first, second, firstReserves, secondReserves, close⟩ :=
    even
      ⟨"a", "Alpha", "seed", 1000, ⟨5000000⟩, none⟩
      (by simp [Request.threeSeeds])
      ⟨"c", "Gamma", "growth", 1000, ⟨3000000⟩, some 800⟩
      (by simp [Request.threeSeeds])
  have paid := amounts.2
  simp only [Plan.plannedFor, firstReserves.found,
    secondReserves.found] at paid ⊢
  refine close ?_
  change second.planned < 800
  simp only [Option.map_some, Option.getD_some] at paid
  omega

end Strategy

end FollowOn

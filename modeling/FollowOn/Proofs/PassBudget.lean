import FollowOn.Proofs.Ledger.Course
import FollowOn.Proofs.RemainderPasses

namespace FollowOn

/-!
# How many remainder passes are allowed

Remainder passes depend on the ledger alone and not on how many passes are left,
so a limit can be used up in two parts: whatever stopped the first part stops
the second one at once, unless it was the limit. A plan with more remainder
passes is therefore one with fewer that is carried on. Nobody loses by it, and
whoever is full stays as they are.
-/

/-- The report of remainder passes followed by further ones. -/
def RemainderReport.followedBy
    (first second : RemainderReport) :
    RemainderReport where
  passes := first.passes + second.passes
  allocated := first.allocated + second.allocated
  stop := second.stop

namespace Ledger

/-- A limit on remainder passes can be used up in two parts. -/
theorem Sound.redistribute_add
    {ledger : Ledger}
    (sound : ledger.Sound)
    (limit further : Nat) :
    redistribute (limit + further) ledger =
      ((redistribute further (redistribute limit ledger).1).1,
        (redistribute limit ledger).2.followedBy
          (redistribute further (redistribute limit ledger).1).2) := by
  refine
    sound.remainder_induction
      (motive := fun limit before result =>
        redistribute (limit + further) before =
          ((redistribute further result.1).1,
            result.2.followedBy (redistribute further result.1).2))
      ?_ ?_ ?_ limit
  · -- A ledger at rest stays so, whatever is left of the limit.
    intro limit resting stop _ rests
    simp [redistribute_of_atRest rests, RemainderReport.followedBy]
  · intro active _ _
    simp [RemainderReport.followedBy]
  · intro left active _ notAtRest moves followed
    have goesOn := redistribute_succ (atRest?_eq_none_iff.mpr notAtRest)
    rw [Nat.add_right_comm, goesOn, if_neg (Int.ne_of_gt moves),
      followed]
    simp only [RemainderReport.followedBy, RemainderReport.after,
      Prod.mk.injEq, RemainderReport.mk.injEq, and_true, true_and]
    omega

end Ledger

/-- How the allocation of a company may change when its ledger is carried on. -/
structure Allocation.GrowsInto (before after : Allocation) : Prop where
  companyId_eq : after.companyId = before.companyId
  cap_eq : after.cap = before.cap
  planned_le : before.planned ≤ after.planned
  full_stays :
    before.planned = before.cap →
      after.planned = before.planned ∧ after.pass = before.pass

/-- How a plan may change when its ledger is carried on. -/
structure Plan.GrowsInto (before after : Plan) : Prop where
  remaining_le : after.remaining ≤ before.remaining
  allocations_grow :
    List.Forall₂ Allocation.GrowsInto
      before.allocations after.allocations

/-- Whoever is looked up in a plan that has grown has no less. -/
theorem Plan.GrowsInto.plannedFor_le
    {before after : Plan}
    (grows : before.GrowsInto after)
    (companyId : String) :
    before.plannedFor companyId ≤ after.plannedFor companyId := by
  have allocationsGrow := grows.allocations_grow
  unfold plannedFor allocationFor?
  generalize before.allocations = earlier at allocationsGrow ⊢
  generalize after.allocations = later at allocationsGrow ⊢
  induction allocationsGrow with
  | nil =>
      exact Int.le_refl _
  | @cons allocation grown rest restGrown headGrows _ inductionHypothesis =>
      simp only [List.find?_cons, headGrows.companyId_eq]
      cases allocation.companyId == companyId with
      | true => exact headGrows.planned_le
      | false => exact inductionHypothesis

namespace Ledger

/-- The allocations of a ledger grow into those of a ledger that it develops into. -/
theorem DevelopsInto.allocations_grow
    {before after : Ledger}
    (develops : before.DevelopsInto after)
    (sound : before.Sound) :
    List.Forall₂ Allocation.GrowsInto
      before.allocations after.allocations := by
  unfold allocations
  rw [List.forall₂_map_left_iff, List.forall₂_map_right_iff]
  have withSound :=
    (List.forall₂_and_left before.accounts _).mpr
      ⟨sound.accounts_sound, develops.accounts_develop⟩
  refine withSound.imp ?_
  rintro account grown ⟨accountSound, accountDevelops⟩
  have terms := accountDevelops.terms_eq
  injection terms with sameId sameCap _ _
  refine ⟨sameId, sameCap, accountDevelops.granted_le, ?_⟩
  intro full
  exact
    (accountDevelops.settled_stays
      (accountSound.settled_iff.mpr full)).2

end Ledger

namespace Strategy

/-- A strategy with another number of remainder passes, and otherwise as it was. -/
def allowing (passes : Nat) : Strategy → Strategy
  | .constrained settings =>
      .constrained { settings with maxRemainderPasses := passes }
  | .proRata settings =>
      .proRata { settings with maxRemainderPasses := passes }

variable
    {strategy : Strategy}
    {passes : Nat}

/-- Allowing more passes leaves the tolerance alone. -/
theorem tolerance_allowing :
    (strategy.allowing passes).settings.tolerancePerCompany =
      strategy.settings.tolerancePerCompany := by
  cases strategy <;> rfl

/-- With more remainder passes a strategy carries its ledger on. -/
theorem exists_redistribute_finalLedger
    (request : Request)
    (more : strategy.settings.maxRemainderPasses ≤ passes) :
    ∃ further,
      (strategy.allowing passes).finalLedger request =
        (Ledger.redistribute further
          (strategy.finalLedger request)).1 := by
  cases strategy with
  | proRata settings =>
      -- A split in proportion runs no remainder passes at all.
      exact ⟨0, (Ledger.redistribute_zero _).symm⟩
  | constrained settings =>
      have firstSound :
          (request.ledger.withSharing
            settings.sharing).runPass.1.Sound :=
        Ledger.PassesTo.shared.sound
          (sound_openingLedger (.constrained settings) request)
      have honoursMore :
          settings.remainderPasses ≤
            ({ settings with
              maxRemainderPasses := passes } : Settings).remainderPasses := by
        simp only [Strategy.settings] at more
        simp only [Settings.remainderPasses]
        omega
      obtain ⟨further, honoured⟩ :=
        Nat.exists_eq_add_of_le honoursMore
      refine ⟨further, ?_⟩
      simp only [allowing, finalLedger, honoured,
        firstSound.redistribute_add]

/-- A plan with more remainder passes carries on the one with fewer. -/
theorem growsInto_planValid_allowing
    (request : Request)
    (more : strategy.settings.maxRemainderPasses ≤ passes) :
    (strategy.planValid request).GrowsInto
      ((strategy.allowing passes).planValid request) := by
  obtain ⟨further, carriedOn⟩ :=
    exists_redistribute_finalLedger request more
  have sound := (continues_finalLedger strategy request).sound
  have develops :
      (strategy.finalLedger request).DevelopsInto
        ((strategy.allowing passes).finalLedger request) := by
    rw [carriedOn]
    exact sound.developsInto_performAll [.redistribute further]
  exact ⟨develops.pool_le, develops.allocations_grow sound⟩

/-- Remainder passes beyond the ceiling are not honoured. -/
theorem planValid_allowing_of_passCeiling_le
    (request : Request)
    (ceiling :
      Settings.passCeiling ≤ strategy.settings.maxRemainderPasses)
    (more : strategy.settings.maxRemainderPasses ≤ passes) :
    (strategy.allowing passes).planValid request =
      strategy.planValid request := by
  have honoured :
      min passes Settings.passCeiling =
        min strategy.settings.maxRemainderPasses
          Settings.passCeiling := by
    rw [Nat.min_eq_right ceiling,
      Nat.min_eq_right (Nat.le_trans ceiling more)]
  have sameLedger :
      (strategy.allowing passes).finalLedger request =
        strategy.finalLedger request := by
    cases strategy with
    | proRata settings =>
        rfl
    | constrained settings =>
        simp only [Strategy.settings] at honoured
        simp only [allowing, finalLedger, Settings.remainderPasses,
          honoured]
  rw [planValid, planValid, sameLedger, tolerance_allowing]

end Strategy

/--
Whatever was done before to a ledger of new accounts, remainder passes up to one
limit and then up to another are those up to the sum of both. So the plan of a
strategy only grows with the remainder passes that its settings allow, and
beyond eight of them it stays the same.
-/
theorem pass_budget_composes :
    (∀ (caps : List (String × Cap))
        (pool : Int)
        (commands : List LedgerCommand)
        (limit further : Nat),
      let ledger := (Ledger.fresh caps pool).performAll commands
      let first := ledger.redistribute limit
      let second := first.1.redistribute further
      let whole := ledger.redistribute (limit + further)
      whole.1 = second.1 ∧
        whole.2.passes = first.2.passes + second.2.passes ∧
        whole.2.allocated = first.2.allocated + second.2.allocated ∧
        whole.2.stop = second.2.stop) ∧
      ∀ (request : Request)
        (strategy : Strategy)
        (passes : Nat),
        request.validate = .ok () →
        strategy.settings.maxRemainderPasses ≤ passes →
        ∃ fewer more,
          strategy.plan request = .ok fewer ∧
            (strategy.allowing passes).plan request = .ok more ∧
            fewer.GrowsInto more ∧
            (∀ companyId,
              fewer.plannedFor companyId ≤
                more.plannedFor companyId) ∧
            (8 ≤ strategy.settings.maxRemainderPasses →
              more = fewer) := by
  refine ⟨fun caps pool commands limit further => ?_, ?_⟩
  · have sound := (Ledger.sound_fresh caps pool).performAll commands
    have inTwoParts := sound.redistribute_add limit further
    simp only [inTwoParts, RemainderReport.followedBy, and_self]
  · intro request strategy passes valid allowed
    have grows :=
      Strategy.growsInto_planValid_allowing request allowed
    exact
      ⟨_, _, Strategy.plan_of_valid valid strategy,
        Strategy.plan_of_valid valid (strategy.allowing passes),
        grows, grows.plannedFor_le,
        fun ceiling =>
          Strategy.planValid_allowing_of_passCeiling_le request ceiling
            allowed⟩

/--
Two seats need one remainder pass for each, run together or one by one. Three
seed companies leave capital without remainder passes and none with two of
them; more than eight change nothing.
-/
theorem pass_budget_composes_twoPasses :
    ((Ledger.twoSeats.redistribute 1).2.stop = .passLimit ∧
        (Ledger.twoSeats.redistribute 1).2.allocated = 151 ∧
        (Ledger.twoSeats.redistribute 2).1 =
          ((Ledger.twoSeats.redistribute 1).1.redistribute 1).1 ∧
        (Ledger.twoSeats.redistribute 2).2.allocated = 301) ∧
      Request.threeSeeds.validate = .ok () ∧
      (∃ fewer more,
        (Strategy.constrained ⟨0, 1, .evenShare⟩).plan
            Request.threeSeeds = .ok fewer ∧
          (Strategy.constrained ⟨2, 1, .evenShare⟩).plan
            Request.threeSeeds = .ok more ∧
          fewer.GrowsInto more ∧
          fewer.remaining = 200 ∧
          more.remaining = 0) ∧
      (Strategy.constrained ⟨4294967295, 1, .evenShare⟩).plan
          Request.threeSeeds =
        (Strategy.constrained ⟨8, 1, .evenShare⟩).plan
          Request.threeSeeds := by
  refine ⟨⟨by decide, by decide, ?_, by decide⟩,
    Request.validate_threeSeeds, ?_, ?_⟩
  · exact (pass_budget_composes.1 _ _ _ 1 1).1
  · obtain ⟨fewer, more, plannedFewer, plannedMore, grows, -, -⟩ :=
      pass_budget_composes.2 Request.threeSeeds
        (.constrained ⟨0, 1, .evenShare⟩) 2
        Request.validate_threeSeeds (by decide)
    refine ⟨fewer, more, plannedFewer, plannedMore, grows, ?_, ?_⟩
    · rw [← (Strategy.plan_eq_ok_iff.mp plannedFewer).2]
      simp only [Strategy.planValid, Plan.ofLedger,
        Strategy.finalLedger, Request.ledger, Request.accounts_eq_map,
        Request.ranked_threeSeeds]
      decide
    · rw [← (Strategy.plan_eq_ok_iff.mp plannedMore).2]
      simp only [Strategy.planValid, Plan.ofLedger,
        Strategy.allowing, Strategy.finalLedger, Request.ledger,
        Request.accounts_eq_map, Request.ranked_threeSeeds]
      decide
  · obtain ⟨fewer, more, plannedFewer, plannedMore, -, -, ceiling⟩ :=
      pass_budget_composes.2 Request.threeSeeds
        (.constrained ⟨8, 1, .evenShare⟩) 4294967295
        Request.validate_threeSeeds (by decide)
    rw [plannedFewer, ← ceiling (by decide)]
    exact plannedMore

end FollowOn

import FollowOn.Proofs.FinalLedger

namespace FollowOn

/-!
# First checks meet the minimum

The minimum is compared with what an account would really be paid, after its
room, its offer and the pool have cut it down. So whichever pass pays an
account for the first time, the payment reaches the minimum of that pass; and
since a strategy runs all its passes under one minimum, a company gets either
nothing or at least that.
-/

namespace Account

/-- If a pass pays an account for the first time, the payment reaches `minimum`. -/
def FirstCheckMeets
    (minimum : Int)
    (before after : Account) : Prop :=
  before.granted = 0 →
    0 < after.granted →
    minimum ≤ after.granted - before.granted

/-- The first check that an account gets meets the minimum of its pass. -/
theorem firstCheckMeets_turn
    (minimum pool : Int)
    (pass : Nat)
    (offer : Offer)
    (account : Account) :
    account.FirstCheckMeets minimum
      (account.turn minimum pool pass offer) := by
  intro unpaid paidAfter
  rw [granted_turn] at paidAfter ⊢
  cases given : account.grant minimum pool offer with
  | closed =>
      simp only [given, Grant.amount] at paidAfter
      omega
  | belowMinimum =>
      simp only [given, Grant.amount] at paidAfter
      omega
  | paid amount =>
      obtain ⟨-, -, meetsMinimum⟩ := paid_inversion given
      have enough := meetsMinimum unpaid
      simp only [Grant.amount]
      omega

/-- An account has either nothing or at least `minimum`. -/
def HasNothingOrAtLeast
    (minimum : Int)
    (account : Account) : Prop :=
  account.granted = 0 ∨ minimum ≤ account.granted

/-- A turn leaves an account with nothing or with the minimum at least. -/
theorem HasNothingOrAtLeast.turn
    {minimum : Int}
    {account : Account}
    (has : account.HasNothingOrAtLeast minimum)
    (pool : Int)
    (pass : Nat)
    (offer : Offer) :
    (account.turn minimum pool pass offer).HasNothingOrAtLeast
      minimum := by
  have added := account.amount_grant_nonneg minimum pool offer
  have firstCheck :=
    account.firstCheckMeets_turn minimum pool pass offer
  unfold FirstCheckMeets at firstCheck
  rw [granted_turn] at firstCheck
  unfold HasNothingOrAtLeast
  rw [granted_turn]
  rcases has with nothing | atLeast
  · have meets := firstCheck nothing
    omega
  · exact Or.inr (by omega)

end Account

namespace Ledger

/-- In a pass each first check meets the minimum in force. -/
theorem PassesTo.forall₂_firstCheckMeets
    {before after : Ledger}
    (pass : before.PassesTo after)
    (sound : before.Sound) :
    List.Forall₂
      (Account.FirstCheckMeets before.minimum)
      before.accounts after.accounts := by
  obtain ⟨offers, suits, same⟩ := pass.exists_offers sound
  rw [same]
  apply forall₂_accounts_of_turns sound suits
  intro account offer turned _ hasTurn
  obtain ⟨pool, -, -, isTurn⟩ := hasTurn
  rw [isTurn]
  exact account.firstCheckMeets_turn _ _ _ _

/-- Each account of a ledger has either nothing or at least the minimum. -/
def FirstChecksMet (ledger : Ledger) : Prop :=
  ∀ account ∈ ledger.accounts,
    account.HasNothingOrAtLeast ledger.minimum

/-- A pass leaves all first checks at the minimum or above. -/
theorem FirstChecksMet.pass
    {before after : Ledger}
    (met : before.FirstChecksMet)
    (sound : before.Sound)
    (pass : before.PassesTo after) :
    after.FirstChecksMet := by
  obtain ⟨offers, suits, same⟩ := pass.exists_offers sound
  intro account member
  rw [same] at member ⊢
  obtain ⟨earlier, offer, inLedger, -, pool, -, -, isTurn⟩ :=
    exists_turn_of_mem sound suits member
  rw [isTurn, minimum_runOffers]
  exact (met earlier inLedger).turn ..

end Ledger

namespace Strategy

/-- At the end of every strategy all first checks meet the minimum. -/
theorem firstChecksMet_finalLedger
    (strategy : Strategy)
    (request : Request) :
    (strategy.finalLedger request).FirstChecksMet := by
  have atStart :
      (strategy.openingLedger request).FirstChecksMet := by
    intro account member
    rw [accounts_openingLedger] at member
    exact Or.inl (Request.granted_eq_zero_of_mem_accounts member)
  refine
    (finalLedger_induction
      (motive := fun ledger => ledger.Sound ∧ ledger.FirstChecksMet)
      ?_ ⟨sound_openingLedger strategy request, atStart⟩).2
  intro before after pass ⟨sound, met⟩
  exact ⟨pass.sound sound, met.pass sound pass⟩

end Strategy

/--
Whatever is done to a ledger of new accounts, each pass that pays an account
for the first time pays it at least the minimum then in force. So in every
plan for a valid request a company has nothing or at least the least reserve.
-/
theorem first_checks_meet_minimum :
    (∀ (caps : List (String × Cap)) (pool : Int)
        (commands : List LedgerCommand),
      ∀ step ∈ (Ledger.fresh caps pool).history commands,
        List.Forall₂
          (Account.FirstCheckMeets step.before.minimum)
          step.before.accounts step.after.accounts) ∧
      ∀ (request : Request) (strategy : Strategy),
        request.validate = .ok () →
        ∃ plan,
          strategy.plan request = .ok plan ∧
            ∀ allocation ∈ plan.allocations,
              allocation.planned = 0 ∨
                ∀ least,
                  request.constraints.minReserve = some least →
                  least ≤ allocation.planned := by
  refine ⟨?_, ?_⟩
  · intro caps pool commands step member
    obtain ⟨earlier, reached, pass⟩ :=
      Ledger.exists_commands_of_mem_history member
    apply pass.forall₂_firstCheckMeets
    rw [reached]
    exact (Ledger.sound_fresh caps pool).performAll earlier
  · intro request strategy valid
    refine
      ⟨strategy.planValid request,
        Strategy.plan_of_valid valid strategy, ?_⟩
    intro allocation member
    obtain ⟨account, inLedger, same⟩ := List.mem_map.mp member
    have met :=
      strategy.firstChecksMet_finalLedger request account inLedger
    rw [← same]
    rcases met with nothing | atLeast
    · exact Or.inl nothing
    · rw [Strategy.minimum_finalLedger] at atLeast
      refine Or.inr ?_
      intro least set
      exact Int.le_trans
        (Request.le_minimum_of_minReserve set) atLeast

/-- Two accounts share too little for two first checks, and the second is held back. -/
def Ledger.scarce : Ledger :=
  ((Ledger.fresh
      [("a", ⟨400, .stageMultiple, false, Ratio.one⟩),
        ("b", ⟨300, .stageMultiple, false, Ratio.one⟩)]
      150).withMinimum (some 100)).withSharing .evenShare

/-- The first of two accounts is paid the whole pool, not a share below the minimum. -/
theorem first_checks_meet_minimum_scarce :
    ((⟨Ledger.scarce, Ledger.scarce.runPass.1⟩ : PassStep) ∈
        (Ledger.fresh
          [("a", ⟨400, .stageMultiple, false, Ratio.one⟩),
            ("b", ⟨300, .stageMultiple, false, Ratio.one⟩)]
          150).history
            [.setMinimum (some 100), .setSharing .evenShare, .pass] ∧
      List.Forall₂ (Account.FirstCheckMeets 100)
        Ledger.scarce.accounts Ledger.scarce.runPass.1.accounts ∧
      Ledger.scarce.runPass.1.accounts.map Account.granted =
        [150, 0]) ∧
      Request.threeSeeds.validate = .ok () ∧
      ∃ plan,
        (Strategy.proRata Settings.standard).plan
            Request.threeSeeds = .ok plan ∧
          ∀ allocation ∈ plan.allocations,
            allocation.planned = 0 ∨
              ∀ least,
                some 50 = some least →
                least ≤ allocation.planned := by
  have passed :
      (⟨Ledger.scarce, Ledger.scarce.runPass.1⟩ : PassStep) ∈
        (Ledger.fresh
          [("a", ⟨400, .stageMultiple, false, Ratio.one⟩),
            ("b", ⟨300, .stageMultiple, false, Ratio.one⟩)]
          150).history
            [.setMinimum (some 100), .setSharing .evenShare, .pass] :=
    List.mem_singleton.mpr rfl
  exact
    ⟨⟨passed, first_checks_meet_minimum.1 _ _ _ _ passed, by decide⟩,
      Request.validate_threeSeeds,
      first_checks_meet_minimum.2 _ _ Request.validate_threeSeeds⟩

end FollowOn

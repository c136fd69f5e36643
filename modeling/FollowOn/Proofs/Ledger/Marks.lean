import FollowOn.Proofs.Ledger.Rest

namespace FollowOn

/-!
# Marks of accounts that a pass left out

A pass first clears all marks and then marks the accounts that it holds back
or refuses for the minimum. It never looks back at accounts that it had no
capital for. So a mark tells the truth about the pass that has just ended: a
marked account was never paid, and an account with room that is neither paid
nor marked was passed over for want of capital, unless no minimum is set and
its share was nothing. The latter does not happen when a pass goes by the
rule of sharing.
-/

/-- Only one kind of offer holds an account back. -/
theorem Offer.holdsBack_iff
    {offer : Offer} :
    offer.holdsBack = true ↔ offer = .heldBack := by
  cases offer <;> simp [holdsBack]

namespace Account

/-- An account with room that was never paid and is not marked. -/
structure IsPassedOver (account : Account) : Prop where
  unpaid : account.granted = 0
  cap_pos : 0 < account.cap
  unmarked : account.belowMinimum = false

section Turn

variable
    {minimum pool : Int}
    {pass : Nat}
    {offer : Offer}
    {account : Account}

/-- A turn marks only accounts that were never paid, and only for a minimum. -/
theorem unpaid_of_belowMinimum_turn
    (suits :
      offer = .heldBack → account.granted = 0 ∧ 0 < minimum)
    (marked :
      (account.turn minimum pool pass offer).belowMinimum = true) :
    (account.turn minimum pool pass offer).granted = 0 ∧
      0 < minimum := by
  rw [belowMinimum_turn, Bool.or_eq_true, decide_eq_true_eq] at marked
  rw [granted_turn]
  rcases marked with holdsBack | refused
  · have isHeldBack := Offer.holdsBack_iff.mp holdsBack
    obtain ⟨unpaid, hasMinimum⟩ := suits isHeldBack
    refine ⟨?_, hasMinimum⟩
    rw [isHeldBack, amount_grant_heldBack, unpaid, Int.add_zero]
  · have unpaid := (belowMinimum_inversion refused).2.1
    refine ⟨?_, minimum_pos_of_belowMinimum refused⟩
    rw [refused, unpaid]
    rfl

/--
While capital is left, a turn passes an account over only if it offers a share
of nothing and no minimum is set.
-/
theorem IsPassedOver.of_turn
    (sound : account.Sound)
    (hasPool : 0 < pool)
    (passedOver :
      (account.turn minimum pool pass offer).IsPassedOver) :
    account.granted = 0 ∧
      0 < account.cap ∧
      minimum ≤ 0 ∧
      ∃ share, offer = .upTo share ∧ share ≤ 0 := by
  obtain ⟨unpaid, capPositive, unmarked⟩ := passedOver
  have notNegative := sound.granted_nonneg
  have added := account.amount_grant_nonneg minimum pool offer
  have room := sound.room_eq
  rw [granted_turn] at unpaid
  rw [cap_turn] at capPositive
  rw [belowMinimum_turn, Bool.or_eq_false_iff,
    decide_eq_false_iff_not] at unmarked
  have neverPaid : account.granted = 0 := by
    omega
  cases given : account.grant minimum pool offer with
  | belowMinimum =>
      exact (unmarked.2 given).elim
  | paid amount =>
      have positive := (paid_bounds given).1
      simp only [given, Grant.amount] at unpaid
      omega
  | closed =>
      have belowCap : account.granted < account.cap := by
        omega
      obtain ⟨offered, noMinimum⟩ :=
        sound.limit_eq_zero_of_closed belowCap hasPool given
      refine ⟨neverPaid, capPositive, noMinimum neverPaid, ?_⟩
      cases offer with
      | unlimited =>
          simp only [Offer.limit] at offered
          omega
      | upTo share =>
          refine ⟨share, rfl, ?_⟩
          simp only [Offer.limit] at offered
          omega
      | heldBack =>
          have isHeldBack := unmarked.1
          simp [Offer.holdsBack] at isHeldBack

end Turn

end Account

namespace Ledger

/-- The marks of a ledger tell the truth about the pass that has just ended. -/
structure MarksHold (ledger : Ledger) : Prop where
  unpaid :
    ∀ account ∈ ledger.accounts,
      account.belowMinimum = true →
        account.granted = 0 ∧ 0 < ledger.minimum
  passedOver :
    ∀ account ∈ ledger.accounts,
      account.IsPassedOver →
        ledger.pool = 0 ∨ ledger.minimum = 0

/-- After a pass, whatever was there before it, the marks tell the truth. -/
theorem PassesTo.marksHold
    {before after : Ledger}
    (pass : before.PassesTo after)
    (sound : before.Sound) :
    after.MarksHold := by
  obtain ⟨offers, suits, same⟩ := pass.exists_offers sound
  subst same
  constructor
  · intro account member marked
    obtain ⟨earlier, offer, -, inOffers, pool, -, -, isTurn⟩ :=
      exists_turn_of_mem sound suits member
    have suitsEarlier :
        offer = .heldBack →
          earlier.granted = 0 ∧ 0 < before.minimum := by
      intro isHeldBack
      rw [isHeldBack] at inOffers
      exact suits.heldBack earlier inOffers
    rw [isTurn] at marked ⊢
    exact Account.unpaid_of_belowMinimum_turn suitsEarlier marked
  · intro account member passedOver
    obtain ⟨earlier, offer, inLedger, -, pool, -, left, isTurn⟩ :=
      exists_turn_of_mem sound suits member
    have paid :=
      earlier.amount_grant_nonneg before.minimum pool offer
    by_cases empty : (before.runOffers offers).1.pool = 0
    · exact Or.inl empty
    · have notNegative := (pool_runOffers_bounds sound offers).1
      have hasPool : 0 < pool := by
        simp only at left
        omega
      rw [isTurn] at passedOver
      have noMinimum :=
        (passedOver.of_turn
          (sound.accounts_sound earlier inLedger) hasPool).2.2.1
      exact Or.inr
        (Int.le_antisymm noMinimum sound.minimum_nonneg)

/-- A pass by the rule of sharing passes somebody over only if it spends the pool. -/
theorem pool_eq_zero_of_passedOver_runPass
    {ledger : Ledger}
    (sound : ledger.Sound)
    {account : Account}
    (member : account ∈ ledger.runPass.1.accounts)
    (passedOver : account.IsPassedOver) :
    ledger.runPass.1.pool = 0 := by
  by_contra notEmpty
  have bounds := pool_runOffers_bounds sound ledger.offers
  obtain ⟨earlier, offer, inLedger, inOffers, pool, atMost, left, isTurn⟩ :=
    exists_turn_of_mem sound (suits_offers sound) member
  have paid :=
    earlier.amount_grant_nonneg ledger.minimum pool offer
  have poolPositive : 0 < pool := by
    simp only [runPass] at notEmpty left
    omega
  have earlierSound := sound.accounts_sound earlier inLedger
  rw [isTurn] at passedOver
  obtain ⟨unpaid, capPositive, noMinimum, share, isShare, nothing⟩ :=
    passedOver.of_turn earlierSound poolPositive
  simp only at isShare
  have hasPool : 0 < ledger.pool :=
    Int.lt_of_lt_of_le poolPositive atMost
  have room := earlierSound.room_eq
  -- The account was open itself, so its share was not nothing.
  have opens : ledger.opens earlier = true := by
    refine earlierSound.isOpen_iff.mpr ⟨by omega, hasPool, ?_⟩
    intro _
    omega
  have someone : ledger.hasOpenRoom = true :=
    List.any_eq_true.mpr ⟨earlier, inLedger, opens⟩
  have sharePositive := share_pos sound hasPool someone
  cases sharing : ledger.sharing with
  | greedy =>
      have unlimited := offer_eq_unlimited_of_greedy sharing inOffers
      rw [isShare] at unlimited
      cases unlimited
  | evenShare =>
      rw [offers, sharing] at inOffers
      rcases mem_offerShare inOffers with shared | ⟨heldBack, -⟩
      · rw [isShare] at shared
        injection shared with sameShare
        omega
      · rw [isShare] at heldBack
        cases heldBack

end Ledger

end FollowOn

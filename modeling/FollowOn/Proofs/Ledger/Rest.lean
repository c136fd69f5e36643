import FollowOn.Proofs.Ledger.History

namespace FollowOn

/-!
# When a ledger is at rest

A ledger is at rest when its pool is empty or nobody could be paid. A greedy
pass always leaves one at rest, since the pool only shrinks after an account
was served. A pass by even shares may not, but from a ledger that is not at
rest it always moves capital: somebody who is open takes part, and nobody
before them has touched the pool. So remainder passes end at rest unless their
limit stops them.
-/

namespace Account

/-- An account that was offered all it can take is not open to what is left. -/
theorem Sound.isOpen_turn_unlimited
    {account : Account}
    (sound : account.Sound)
    {minimum pool after : Int}
    (pass : Nat)
    (positive : 0 < after)
    (left :
      after + (account.grant minimum pool .unlimited).amount ≤ pool) :
    (account.turn minimum pool pass .unlimited).isOpen
      minimum after = false := by
  have room := sound.room_eq
  have turnedSound := sound.turn minimum pool pass .unlimited
  have turnedRoom := turnedSound.room_eq
  rw [← Bool.not_eq_true, turnedSound.isOpen_iff]
  rintro ⟨belowCap, -, meetsMinimum⟩
  rw [granted_turn, cap_turn] at belowCap turnedRoom
  rw [granted_turn] at meetsMinimum
  cases given : account.grant minimum pool .unlimited with
  | closed =>
      simp only [given, Grant.amount] at left belowCap
      have hasPool : 0 < pool := by
        omega
      have offered :=
        (sound.limit_eq_zero_of_closed (by omega) hasPool given).1
      simp only [Offer.limit] at offered
      omega
  | belowMinimum =>
      obtain ⟨-, unpaid, -, tooSmall⟩ := belowMinimum_inversion given
      simp only [given, Grant.amount] at left meetsMinimum turnedRoom
      simp only [Offer.limit] at tooSmall
      have enough := meetsMinimum (by omega)
      omega
  | paid amount =>
      obtain ⟨-, offered, -⟩ := paid_inversion given
      simp only [given, Grant.amount] at left belowCap
      simp only [Offer.limit] at offered
      omega

/-- An open account is paid out of a share that is enough for a first check. -/
theorem Sound.exists_paid_of_isOpen
    {account : Account}
    (sound : account.Sound)
    {minimum pool share : Int}
    (opens : account.isOpen minimum pool = true)
    (positive : 0 < share)
    (enough : account.granted = 0 → minimum ≤ share) :
    ∃ amount,
      account.grant minimum pool (.upTo share) = .paid amount := by
  obtain ⟨belowCap, hasPool, meetsMinimum⟩ := sound.isOpen_iff.mp opens
  have room := sound.room_eq
  cases given : account.grant minimum pool (.upTo share) with
  | paid amount =>
      exact ⟨amount, rfl⟩
  | closed =>
      have offered :=
        (sound.limit_eq_zero_of_closed belowCap hasPool given).1
      simp only [Offer.limit] at offered
      omega
  | belowMinimum =>
      obtain ⟨-, unpaid, -, tooSmall⟩ := belowMinimum_inversion given
      have wholeIsEnough := meetsMinimum unpaid
      have shareIsEnough := enough unpaid
      simp only [Offer.limit] at tooSmall
      omega

end Account

/-- If serving moves nothing, every account was served from the whole pool in vain. -/
theorem amount_grant_eq_zero_of_totalGranted
    {minimum pool : Int}
    (poolNotNegative : 0 ≤ pool)
    {offers : List (Account × Offer)}
    (idle : totalGranted (serve minimum pool offers) = 0)
    {account : Account}
    {offer : Offer}
    (member : (account, offer) ∈ offers) :
    (account.grant minimum pool offer).amount = 0 := by
  induction offers with
  | nil =>
      cases member
  | cons first rest inductionHypothesis =>
      obtain ⟨firstAccount, firstOffer⟩ := first
      have firstPaid :=
        firstAccount.amount_grant_nonneg minimum pool firstOffer
      have left :=
        sub_amount_grant_nonneg poolNotNegative minimum firstAccount
          firstOffer
      have restMoved :
          0 ≤ totalGranted
            (serve minimum
              (pool -
                (firstAccount.grant minimum pool firstOffer).amount)
              rest) :=
        (totalGranted_bounds left rest).1
      have total :
          (firstAccount.grant minimum pool firstOffer).amount +
              totalGranted
                (serve minimum
                  (pool -
                    (firstAccount.grant minimum pool firstOffer).amount)
                  rest) = 0 := idle
      have headIdle :
          (firstAccount.grant minimum pool firstOffer).amount = 0 := by
        omega
      rcases List.mem_cons.mp member with isFirst | inRest
      · cases isFirst
        exact headIdle
      · rw [headIdle, Int.sub_zero, Int.zero_add] at total
        exact inductionHypothesis total inRest

namespace Ledger

/-- The pool is empty or nobody could be paid. -/
def AtRest (ledger : Ledger) : Prop :=
  ledger.pool = 0 ∨ ledger.hasOpenRoom = false

/-- No reason to stop is found exactly if the ledger is not at rest. -/
theorem atRest?_eq_none_iff
    {ledger : Ledger} :
    ledger.atRest? = none ↔ ¬ledger.AtRest := by
  unfold atRest? AtRest
  split
  · simp [*]
  · split <;> simp [*]

/-- At rest with capital left, an account is full, or its first check too small. -/
theorem Sound.full_or_belowMinimum_of_atRest
    {ledger : Ledger}
    (sound : ledger.Sound)
    (resting : ledger.AtRest)
    (hasPool : 0 < ledger.pool)
    {account : Account}
    (member : account ∈ ledger.accounts) :
    account.granted = account.cap ∨
      (account.granted = 0 ∧
        min account.cap ledger.pool < ledger.minimum) := by
  have accountSound := sound.accounts_sound account member
  have bounded := accountSound.granted_le_cap
  have room := accountSound.room_eq
  have closed : ¬ledger.opens account = true := by
    rcases resting with empty | nobody
    · omega
    · simp only [hasOpenRoom, List.any_eq_false] at nobody
      exact nobody account member
  rw [opens, accountSound.isOpen_iff] at closed
  by_cases full : account.granted = account.cap
  · exact Or.inl full
  · refine Or.inr ?_
    by_contra stillOpen
    apply closed
    refine ⟨by omega, hasPool, ?_⟩
    intro unpaid
    omega

/-- A greedy pass leaves a ledger at rest. -/
theorem atRest_runPass_of_greedy
    {ledger : Ledger}
    (sound : ledger.Sound)
    (greedy : ledger.sharing = .greedy) :
    ledger.runPass.1.AtRest := by
  have bounds := pool_runOffers_bounds sound ledger.offers
  rcases Int.lt_or_eq_of_le bounds.1 with positive | empty
  · refine Or.inr ?_
    simp only [hasOpenRoom, List.any_eq_false, Bool.not_eq_true]
    intro after member
    obtain ⟨account, offer, inLedger, inOffers, pool, -, left, isTurn⟩ :=
      exists_turn_of_mem sound (suits_offers sound) member
    have unlimited := offer_eq_unlimited_of_greedy greedy inOffers
    subst unlimited
    rw [isTurn]
    exact (sound.accounts_sound account inLedger).isOpen_turn_unlimited
      _ positive left
  · exact Or.inl empty.symm

/-- Where there is open room, somebody is funded or somebody waits. -/
theorem counts_pos_of_hasOpenRoom
    {ledger : Ledger}
    (sound : ledger.Sound)
    (someone : ledger.hasOpenRoom = true) :
    0 < ledger.fundedCount ∨ 0 < ledger.waitingCount := by
  obtain ⟨account, member, opens⟩ := List.any_eq_true.mp someone
  have notNegative :=
    (sound.accounts_sound account member).granted_nonneg
  rcases Int.lt_or_eq_of_le notNegative with paid | unpaid
  · refine Or.inl (List.countP_pos_iff.mpr ⟨account, member, ?_⟩)
    simp [opens, paid]
  · refine Or.inr (List.countP_pos_iff.mpr ⟨account, member, ?_⟩)
    simp [waits, opens, ← unpaid]

/-- If everybody who is open waits, somebody is admitted. -/
theorem admitted_pos_of_waits
    {ledger : Ledger}
    (sound : ledger.Sound)
    (nobodyPaid : ledger.fundedCount = 0)
    (someone : 0 < ledger.waitingCount) :
    0 < ledger.admitted := by
  obtain ⟨account, member, waiting⟩ := List.countP_pos_iff.mp someone
  have unpaid := granted_eq_zero_of_waits waiting
  have opens := opens_of_waits waiting
  have enough :=
    ((sound.accounts_sound account member).isOpen_iff.mp opens).2.2
      unpaid
  unfold admitted
  rw [nobodyPaid]
  exact admissions_pos (by omega) someone

/-- By even shares, an open account takes part in the next pass and is paid its share. -/
theorem exists_shared_of_hasOpenRoom
    {ledger : Ledger}
    (sound : ledger.Sound)
    (someone : ledger.hasOpenRoom = true) :
    ∃ account ∈ ledger.accounts,
      ledger.opens account = true ∧
        (account, Offer.upTo ledger.share) ∈
          offerShare ledger.waits ledger.share ledger.admitted
            ledger.accounts ∧
        0 < ledger.fundedCount + ledger.admitted ∧
        (account.granted = 0 → 0 < ledger.admitted) := by
  -- Whoever was paid before takes part in any case. Places for first
  -- checks are certain only while nobody else shares the pool.
  rcases Nat.eq_zero_or_pos ledger.fundedCount with nobodyPaid | paidBefore
  · have waiting : 0 < ledger.waitingCount := by
      have counts := counts_pos_of_hasOpenRoom sound someone
      omega
    have admits := admitted_pos_of_waits sound nobodyPaid waiting
    obtain ⟨account, member, accountWaits, offered⟩ :=
      exists_waits_mem_offerShare admits waiting
    have opens := opens_of_waits accountWaits
    exact ⟨account, member, opens, offered, by omega, fun _ => admits⟩
  · obtain ⟨account, member, isFunded⟩ :=
      List.countP_pos_iff.mp paidBefore
    simp only [Bool.and_eq_true, decide_eq_true_eq] at isFunded
    have doesNotWait : ledger.waits account = false := by
      simp only [waits, Bool.and_eq_false_iff, beq_eq_false_iff_ne]
      exact Or.inr (Int.ne_of_gt isFunded.2)
    refine
      ⟨account, member, isFunded.1,
        mem_offerShare_of_not_waits member doesNotWait, by omega, ?_⟩
    intro unpaid
    omega

/-- While there is a pool and open room, the share is positive. -/
theorem share_pos
    {ledger : Ledger}
    (sound : ledger.Sound)
    (hasPool : 0 < ledger.pool)
    (someone : ledger.hasOpenRoom = true) :
    0 < ledger.share := by
  obtain ⟨account, -, -, -, takesPart, -⟩ :=
    exists_shared_of_hasOpenRoom sound someone
  exact evenShare_pos hasPool takesPart

/-- A ledger is not at rest exactly while there are both a pool and open room for it. -/
theorem Sound.not_atRest_iff
    {ledger : Ledger}
    (sound : ledger.Sound) :
    ¬ledger.AtRest ↔
      0 < ledger.pool ∧ ledger.hasOpenRoom = true := by
  have notNegative := sound.pool_nonneg
  simp only [AtRest, not_or, Bool.not_eq_false]
  constructor
  · rintro ⟨notEmpty, someone⟩
    exact ⟨by omega, someone⟩
  · rintro ⟨hasPool, someone⟩
    exact ⟨by omega, someone⟩

/-- From a ledger that is not at rest the next pass would pay somebody at once. -/
theorem exists_paid_of_not_atRest
    {ledger : Ledger}
    (sound : ledger.Sound)
    (active : ¬ledger.AtRest) :
    ∃ account offer amount,
      (account, offer) ∈ ledger.offers ∧
        account.grant ledger.minimum ledger.pool offer =
          .paid amount := by
  obtain ⟨hasPool, someone⟩ := sound.not_atRest_iff.mp active
  cases sharing : ledger.sharing with
  | greedy =>
      obtain ⟨account, member, opens⟩ := List.any_eq_true.mp someone
      simp only [Ledger.opens, Account.isOpen] at opens
      cases given :
          account.grant ledger.minimum ledger.pool .unlimited with
      | closed => simp [given, Grant.isPaid] at opens
      | belowMinimum => simp [given, Grant.isPaid] at opens
      | paid amount =>
          refine ⟨account, .unlimited, amount, ?_, given⟩
          rw [offers, sharing]
          exact List.mem_map_of_mem member
  | evenShare =>
      obtain ⟨account, member, opens, offered, -, admits⟩ :=
        exists_shared_of_hasOpenRoom sound someone
      have sharePositive := share_pos sound hasPool someone
      have enough :
          account.granted = 0 → ledger.minimum ≤ ledger.share :=
        fun unpaid =>
          minimum_le_evenShare_of_admissions (admits unpaid)
      obtain ⟨amount, paid⟩ :=
        (sound.accounts_sound account member).exists_paid_of_isOpen
          opens sharePositive enough
      refine ⟨account, .upTo ledger.share, amount, ?_, paid⟩
      rw [offers, sharing]
      exact offered

/-- A pass on a ledger that is not at rest pays something. -/
theorem allocated_runPass_pos
    {ledger : Ledger}
    (sound : ledger.Sound)
    (active : ¬ledger.AtRest) :
    0 < ledger.runPass.2.allocated := by
  obtain ⟨account, offer, amount, offered, paid⟩ :=
    exists_paid_of_not_atRest sound active
  have moved :
      0 ≤ totalGranted
        (serve ledger.minimum ledger.pool ledger.offers) :=
    (totalGranted_bounds sound.pool_nonneg ledger.offers).1
  rcases Int.lt_or_eq_of_le moved with positive | idle
  · exact positive
  · have nothing :=
      amount_grant_eq_zero_of_totalGranted sound.pool_nonneg
        idle.symm offered
    rw [paid] at nothing
    have positive := (Account.paid_bounds paid).1
    exact (Int.ne_of_gt positive nothing).elim

/-- A ledger at rest stays as it is, without a remainder pass. -/
theorem AtRest.exists_redistribute_eq
    {ledger : Ledger}
    (resting : ledger.AtRest)
    (limit : Nat) :
    ∃ stop, redistribute limit ledger = (ledger, ⟨0, 0, stop⟩) := by
  have stops : ledger.atRest? ≠ none := by
    rw [ne_eq, atRest?_eq_none_iff, not_not]
    exact resting
  obtain ⟨stop, stopped⟩ := Option.ne_none_iff_exists'.mp stops
  exact ⟨stop, redistribute_of_atRest stopped limit⟩

/-- Remainder passes end at rest, or use up their limit. -/
theorem atRest_or_passes_eq_of_redistribute
    {ledger : Ledger}
    (sound : ledger.Sound)
    (limit : Nat) :
    (redistribute limit ledger).1.AtRest ∨
      (redistribute limit ledger).2.passes = limit := by
  induction limit generalizing ledger with
  | zero =>
      cases resting : ledger.atRest? <;>
        simp [redistribute, resting]
  | succ left inductionHypothesis =>
      by_cases resting : ledger.AtRest
      · obtain ⟨stop, unchanged⟩ :=
          resting.exists_redistribute_eq (left + 1)
        rw [unchanged]
        exact Or.inl resting
      · have moves := allocated_runPass_pos sound resting
        rw [redistribute_succ (atRest?_eq_none_iff.mpr resting),
          if_neg (Int.ne_of_gt moves)]
        rcases inductionHypothesis (PassesTo.shared.sound sound) with
          ended | usedUp
        · exact Or.inl ended
        · exact Or.inr (congrArg (· + 1) usedUp)

end Ledger

end FollowOn

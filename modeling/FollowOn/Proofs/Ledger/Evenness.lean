import FollowOn.Proofs.Ledger.History

namespace FollowOn

/-!
# How evenly passes by even shares pay

Without a minimum every account with room is offered the same share in a pass
by even shares. As long as the pool lasts, the accounts that still have room
therefore stand at one level, and nobody stands above it. The share is rounded
up, so the pool may run out before the last accounts have their share; what
they miss together is less than one unit for each account that took part. That
happens in one pass only, since no capital is left after it.
-/

/-- Rounded up, the shares exceed the pool by less than a unit for each account. -/
theorem evenShare_mul_le
    (pool : Int)
    {count : Nat}
    (someone : 0 < count) :
    evenShare pool count * count ≤ pool + (count - 1) := by
  unfold evenShare
  rw [if_neg (Nat.ne_of_gt someone)]
  exact Int.ediv_mul_le _ (by omega)

namespace Account

/-- An account is below its cap. -/
def hasRoom (account : Account) : Bool :=
  decide (account.granted < account.cap)

/-- Without a minimum an account is paid what its offer leaves of its room and the pool. -/
theorem Sound.amount_grant_of_no_minimum
    {account : Account}
    (sound : account.Sound)
    {pool : Int}
    (poolNotNegative : 0 ≤ pool)
    (offer : Offer) :
    (account.grant 0 pool offer).amount =
      offer.limit (min account.room pool) := by
  have room := sound.room_eq
  have bounded := sound.granted_le_cap
  have ofNothing : offer.limit 0 = 0 := by
    cases offer <;> simp only [Offer.limit] <;> omega
  have nothing : Grant.closed.amount = 0 := rfl
  cases given : account.grant 0 pool offer with
  | paid amount =>
      exact (paid_inversion given).2.1
  | belowMinimum =>
      exact (Int.lt_irrefl 0 (minimum_pos_of_belowMinimum given)).elim
  | closed =>
      rw [nothing]
      rcases closed_inversion given with
        settled | noRoom | ⟨offeredNothing, -⟩
      · have full := sound.settled_iff.mp settled
        have noRoom : min account.room pool = 0 := by
          omega
        rw [noRoom, ofNothing]
      · have noRoom : min account.room pool = 0 := by
          omega
        rw [noRoom, ofNothing]
      · exact offeredNothing.symm

/-- Without a minimum an account is paid the least of its room, the pool and its share. -/
theorem Sound.amount_grant_upTo
    {account : Account}
    (sound : account.Sound)
    {pool : Int}
    (poolNotNegative : 0 ≤ pool)
    (share : Int) :
    (account.grant 0 pool (.upTo share)).amount =
      min (min account.room pool) (max share 0) :=
  sound.amount_grant_of_no_minimum poolNotNegative (.upTo share)

/--
What a pass without a minimum does to an account that is offered a share: it
gets no more than that, and if it is still below its cap, it got its share or
the pool ran out `shortfall` or less before.
-/
structure Shared
    (share shortfall poolAfter : Int)
    (before after : Account) : Prop where
  cap_eq : after.cap = before.cap
  granted_le : after.granted ≤ before.granted + share
  outcome :
    after.granted < after.cap →
      before.granted < before.cap ∧
        (after.granted = before.granted + share ∨
          (poolAfter = 0 ∧
            before.granted + share ≤ after.granted + shortfall))

/-- A greater shortfall is allowed wherever a smaller one is. -/
theorem Shared.of_le
    {share shortfall greater poolAfter : Int}
    {before after : Account}
    (shared : before.Shared share shortfall poolAfter after)
    (atMost : shortfall ≤ greater) :
    before.Shared share greater poolAfter after where
  cap_eq := shared.cap_eq
  granted_le := shared.granted_le
  outcome belowCap := by
    obtain ⟨hadRoom, got⟩ := shared.outcome belowCap
    refine ⟨hadRoom, got.imp_right ?_⟩
    rintro ⟨empty, missing⟩
    exact ⟨empty, by omega⟩

/--
An account gets its share unless that empties the pool. Then it misses no more
than what it and the accounts after it, whose shares come to `others`, could
take beyond the pool.
-/
theorem Sound.shared_turn
    {account : Account}
    (sound : account.Sound)
    {share pool poolAfter others : Int}
    (shareNotNegative : 0 ≤ share)
    (poolAfterNotNegative : 0 ≤ poolAfter)
    (left :
      poolAfter + (account.grant 0 pool (.upTo share)).amount ≤ pool)
    (othersTake : 0 ≤ others)
    (pass : Nat) :
    account.Shared share
      (others + (if account.hasRoom then share else 0) - pool)
      poolAfter
      (account.turn 0 pool pass (.upTo share)) := by
  have room := sound.room_eq
  have paid := account.amount_grant_nonneg 0 pool (.upTo share)
  have poolNotNegative : 0 ≤ pool := by
    omega
  have amount := sound.amount_grant_upTo poolNotNegative share
  refine ⟨account.cap_turn .., ?_, ?_⟩
  · rw [granted_turn]
    omega
  · rw [granted_turn, cap_turn]
    intro belowCap
    have hasRoom : account.granted < account.cap := by
      omega
    rw [if_pos (by simpa [Account.hasRoom] using hasRoom)]
    refine ⟨hasRoom, ?_⟩
    rcases Int.le_total share pool with lasts | runsOut
    · exact Or.inl (by omega)
    · exact Or.inr ⟨by omega, by omega⟩

/-- An account takes its share at most, and nothing without room. -/
theorem Sound.amount_grant_upTo_le
    {account : Account}
    (sound : account.Sound)
    {share pool : Int}
    (poolNotNegative : 0 ≤ pool)
    (shareNotNegative : 0 ≤ share) :
    (account.grant 0 pool (.upTo share)).amount ≤
      if account.hasRoom then share else 0 := by
  have room := sound.room_eq
  have amount := sound.amount_grant_upTo poolNotNegative share
  by_cases hasRoom : account.hasRoom = true
  · rw [if_pos hasRoom]
    omega
  · rw [if_neg hasRoom]
    simp only [Account.hasRoom, decide_eq_true_eq] at hasRoom
    omega

end Account

/-- Serving shares without a minimum: nobody misses more than the pool lacks for all. -/
theorem forall₂_serve_shared
    {pool share : Int}
    {accounts : List Account}
    (poolNotNegative : 0 ≤ pool)
    (shareNotNegative : 0 ≤ share)
    (sound : ∀ account ∈ accounts, account.Sound)
    (pass : Nat) :
    List.Forall₂
      (Account.Shared share
        (accounts.countP Account.hasRoom * share - pool)
        (pool -
          totalGranted
            (serve 0 pool (accounts.map (·, .upTo share)))))
      accounts
      ((serve 0 pool (accounts.map (·, .upTo share))).map
        fun (account, grant) => account.receive pass grant) := by
  induction accounts generalizing pool with
  | nil =>
      exact .nil
  | cons account rest inductionHypothesis =>
      obtain ⟨accountSound, restSound⟩ := List.forall_mem_cons.mp sound
      have left :=
        sub_amount_grant_nonneg poolNotNegative 0 account (.upTo share)
      have restWithin :
          totalGranted
              (serve 0
                (pool - (account.grant 0 pool (.upTo share)).amount)
                (rest.map (·, .upTo share))) ≤
            pool - (account.grant 0 pool (.upTo share)).amount :=
        (totalGranted_bounds left _).2
      have restMoved :
          0 ≤ totalGranted
            (serve 0
              (pool - (account.grant 0 pool (.upTo share)).amount)
              (rest.map (·, .upTo share))) :=
        (totalGranted_bounds left _).1
      have othersTake :
          0 ≤ (rest.countP Account.hasRoom : Int) * share :=
        Int.mul_nonneg (Int.natCast_nonneg _) shareNotNegative
      have allTake :
          ((account :: rest).countP Account.hasRoom : Int) * share =
            rest.countP Account.hasRoom * share +
              if account.hasRoom then share else 0 := by
        rw [List.countP_cons]
        split <;> simp [Int.add_mul]
      rw [allTake, List.map_cons, sub_totalGranted_serve_cons]
      refine .cons ?_ ((inductionHypothesis left restSound).imp ?_)
      · exact accountSound.shared_turn shareNotNegative
          (by omega) (by omega) othersTake pass
      · intro before after shared
        have atMost :=
          accountSound.amount_grant_upTo_le poolNotNegative
            shareNotNegative
        exact shared.of_le (by omega)

/-- With a place for everybody who waits, all are offered the share. -/
theorem offerShare_eq_map
    {waits : Account → Bool}
    {places : Nat}
    {accounts : List Account}
    (enough : accounts.countP waits ≤ places)
    (share : Int) :
    offerShare waits share places accounts =
      accounts.map (·, .upTo share) := by
  induction accounts generalizing places with
  | nil =>
      rfl
  | cons first rest inductionHypothesis =>
      by_cases firstWaits : waits first = true
      · rw [List.countP_cons_of_pos firstWaits] at enough
        obtain ⟨left, isPlace⟩ :=
          Nat.exists_eq_add_one.mpr
            (Nat.lt_of_lt_of_le (Nat.succ_pos _) enough)
        subst isPlace
        simp only [offerShare, if_pos firstWaits, List.map_cons,
          inductionHypothesis (Nat.le_of_succ_le_succ enough)]
      · rw [List.countP_cons_of_neg firstWaits] at enough
        simp only [offerShare, if_neg firstWaits, List.map_cons,
          inductionHypothesis enough]

namespace Ledger

variable
    {ledger : Ledger}

/-- Every open account either was paid before or waits. -/
theorem fundedCount_add_waitingCount
    (sound : ledger.Sound) :
    ledger.fundedCount + ledger.waitingCount =
      ledger.accounts.countP ledger.opens := by
  rw [fundedCount, waitingCount,
    List.countP_eq_countP_filter_add _ ledger.opens
      (fun account => decide (0 < account.granted)),
    List.countP_filter, List.countP_filter]
  congr 1
  apply List.countP_congr
  intro account member
  have notNegative :=
    (sound.accounts_sound account member).granted_nonneg
  simp only [waits, Bool.and_eq_true, beq_iff_eq, Bool.not_eq_true',
    decide_eq_false_iff_not]
  constructor <;> rintro ⟨opens, amount⟩ <;> exact ⟨opens, by omega⟩

section NoMinimum

variable
    (sound : ledger.Sound)
    (noMinimum : ledger.minimum = 0)

include sound noMinimum

/-- Without a minimum the accounts that are open are those with room. -/
theorem countP_opens
    (hasPool : 0 < ledger.pool) :
    ledger.accounts.countP ledger.opens =
      ledger.accounts.countP Account.hasRoom := by
  apply List.countP_congr
  intro account member
  have accountSound := sound.accounts_sound account member
  have room := accountSound.room_eq
  rw [opens, accountSound.isOpen_iff, noMinimum]
  simp only [Account.hasRoom, decide_eq_true_eq]
  constructor
  · exact And.left
  · exact fun belowCap => ⟨belowCap, hasPool, fun _ => by omega⟩

/-- Without a minimum nobody is left out of a pass by even shares. -/
theorem admitted_eq_waitingCount :
    ledger.admitted = ledger.waitingCount := by
  apply Nat.le_antisymm (admissions_le ..)
  apply Nat.le_of_not_lt
  intro fewer
  have positive :=
    minimum_pos_of_admissions_lt sound.pool_nonneg fewer
  omega

/-- Without a minimum nobody is held back from the share. -/
theorem offers_eq_map_share
    (evenly : ledger.sharing = .evenShare) :
    ledger.offers =
      ledger.accounts.map (·, .upTo ledger.share) := by
  simp only [offers, evenly]
  apply offerShare_eq_map
  rw [admitted_eq_waitingCount sound noMinimum]
  exact Nat.le_refl _

/-- Without a minimum the pool is shared by all accounts that have room. -/
theorem share_eq_evenShare
    (hasPool : 0 < ledger.pool) :
    ledger.share =
      evenShare ledger.pool
        (ledger.accounts.countP Account.hasRoom) := by
  rw [share, admitted_eq_waitingCount sound noMinimum,
    fundedCount_add_waitingCount sound,
    countP_opens sound noMinimum hasPool]

/-- What a pass by even shares does to each account when there is no minimum. -/
theorem forall₂_shared_runPass
    (evenly : ledger.sharing = .evenShare) :
    List.Forall₂
      (Account.Shared ledger.share
        (ledger.accounts.countP Account.hasRoom * ledger.share -
          ledger.pool)
        ledger.runPass.1.pool)
      ledger.accounts
      ledger.runPass.1.accounts := by
  have nonneg : 0 ≤ ledger.share :=
    evenShare_nonneg sound.pool_nonneg _
  have served :=
    forall₂_serve_shared sound.pool_nonneg nonneg
      sound.accounts_sound (ledger.passes + 1)
  rw [← offers_eq_map_share sound noMinimum evenly, ← noMinimum]
    at served
  exact served

end NoMinimum

/--
All accounts below their cap are within `gap` of some level, and nobody stands
above it.
-/
def EvenWithin
    (gap : Int)
    (ledger : Ledger) : Prop :=
  ∃ level,
    ∀ account ∈ ledger.accounts,
      account.granted ≤ level ∧
        (account.granted < account.cap →
          level ≤ account.granted + gap)

/--
Accounts below their cap are on one level, unless the pool ran out; then they
are within one unit for each other account.
-/
def IsEven (ledger : Ledger) : Prop :=
  ledger.EvenWithin 0 ∨
    (ledger.pool = 0 ∧
      ledger.EvenWithin (ledger.accounts.length - 1))

/-- A pass over an empty pool pays nobody. -/
theorem forall₂_unpaid_of_pool_eq_zero
    (sound : ledger.Sound)
    (empty : ledger.pool = 0) :
    List.Forall₂
      (fun before after =>
        after.cap = before.cap ∧ after.granted = before.granted)
      ledger.accounts
      ledger.runPass.1.accounts := by
  apply forall₂_accounts_of_turns sound (suits_offers sound)
  rintro account offer after - ⟨pool, atMost, atLeast, isTurn⟩
  have paid := account.amount_grant_nonneg ledger.minimum pool offer
  have poolAfter := (pool_runOffers_bounds sound ledger.offers).1
  simp only at atLeast isTurn
  rw [isTurn, Account.cap_turn, Account.granted_turn]
  exact ⟨rfl, by omega⟩

/-- A pass with an empty pool changes no amount. -/
theorem EvenWithin.runPass_of_pool_eq_zero
    {gap : Int}
    (even : ledger.EvenWithin gap)
    (sound : ledger.Sound)
    (empty : ledger.pool = 0) :
    ledger.runPass.1.EvenWithin gap := by
  obtain ⟨level, atLevel⟩ := even
  refine ⟨level, ?_⟩
  intro after member
  obtain ⟨before, inLedger, sameCap, sameGranted⟩ :=
    exists_mem_left_of_forall₂
      (forall₂_unpaid_of_pool_eq_zero sound empty) member
  rw [sameCap, sameGranted]
  exact atLevel before inLedger

/-- Shares from one level lead to one level, or empty the pool. -/
theorem EvenWithin.isEven_runPass
    (even : ledger.EvenWithin 0)
    (sound : ledger.Sound)
    (noMinimum : ledger.minimum = 0)
    (evenly : ledger.sharing = .evenShare)
    (hasPool : 0 < ledger.pool) :
    ledger.runPass.1.IsEven := by
  obtain ⟨level, atLevel⟩ := even
  have served := forall₂_shared_runPass sound noMinimum evenly
  have nobodyAbove :
      ∀ after ∈ ledger.runPass.1.accounts,
        after.granted ≤ level + ledger.share := by
    intro after member
    obtain ⟨before, inLedger, shared⟩ :=
      exists_mem_left_of_forall₂ served member
    have bounded := shared.granted_le
    have atMost := (atLevel before inLedger).1
    omega
  by_cases empty : ledger.runPass.1.pool = 0
  · refine
      Or.inr ⟨empty, level + ledger.share, fun after member =>
        ⟨nobodyAbove after member, fun belowCap => ?_⟩⟩
    obtain ⟨before, inLedger, shared⟩ :=
      exists_mem_left_of_forall₂ served member
    obtain ⟨hadRoom, got⟩ := shared.outcome belowCap
    have atLeast := (atLevel before inLedger).2 hadRoom
    have someone : 0 < ledger.accounts.countP Account.hasRoom :=
      List.countP_pos_iff.mpr
        ⟨before, inLedger, by simpa [Account.hasRoom] using hadRoom⟩
    have atMost :
        ledger.accounts.countP Account.hasRoom ≤
          ledger.runPass.1.accounts.length := by
      rw [← served.length_eq]
      exact List.countP_le_length
    have rounding := evenShare_mul_le ledger.pool someone
    rw [← share_eq_evenShare sound noMinimum hasPool,
      Int.mul_comm] at rounding
    omega
  · refine
      Or.inl ⟨level + ledger.share, fun after member =>
        ⟨nobodyAbove after member, fun belowCap => ?_⟩⟩
    obtain ⟨before, inLedger, shared⟩ :=
      exists_mem_left_of_forall₂ served member
    obtain ⟨hadRoom, got⟩ := shared.outcome belowCap
    have atLeast := (atLevel before inLedger).2 hadRoom
    omega

/-- Without a minimum, a pass by even shares keeps a ledger even. -/
theorem IsEven.runPass
    (even : ledger.IsEven)
    (sound : ledger.Sound)
    (noMinimum : ledger.minimum = 0)
    (evenly : ledger.sharing = .evenShare) :
    ledger.runPass.1.IsEven := by
  have poolNotNegative := sound.pool_nonneg
  by_cases empty : ledger.pool = 0
  · have sameLength :=
      (forall₂_unpaid_of_pool_eq_zero sound empty).length_eq
    have after := pool_runOffers_bounds sound ledger.offers
    have stillEmpty : ledger.runPass.1.pool = 0 := by
      rw [Ledger.runPass]
      omega
    rcases even with level | ⟨-, close⟩
    · exact Or.inl (level.runPass_of_pool_eq_zero sound empty)
    · refine Or.inr ⟨stillEmpty, ?_⟩
      rw [← sameLength]
      exact close.runPass_of_pool_eq_zero sound empty
  · have level : ledger.EvenWithin 0 :=
      even.resolve_right fun ranOut => empty ranOut.1
    exact level.isEven_runPass sound noMinimum evenly (by omega)

/-- In an even ledger nobody is far ahead of an account below its cap. -/
theorem IsEven.granted_le
    (even : ledger.IsEven)
    {ahead behind : Account}
    (aheadMember : ahead ∈ ledger.accounts)
    (behindMember : behind ∈ ledger.accounts)
    (belowCap : behind.granted < behind.cap) :
    ahead.granted ≤
      behind.granted + (ledger.accounts.length - 1) := by
  have someone := List.length_pos_of_mem behindMember
  rcases even with ⟨level, atLevel⟩ | ⟨-, level, atLevel⟩ <;>
  · have atMost := (atLevel ahead aheadMember).1
    have atLeast := (atLevel behind behindMember).2 belowCap
    omega

end Ledger

end FollowOn

import FollowOn.Ledger.EvenShare
import FollowOn.Ledger.Weighted
import FollowOn.Proofs.Ledger.Pass

namespace FollowOn

/-!
# What passes offer

The offers of each kind of pass suit the ledger: they go to its accounts in
order, and hold an account back only when it waits for its first check and a
minimum is set. A pass by even shares offers one share to everybody else; the
share is positive while capital is left, and large enough for the first check
of whoever is admitted.
-/

/-- What an even share reaches: one unit less, taken by everybody, leaves capital. -/
theorem le_evenShare_iff
    {amount pool : Int}
    {count : Nat}
    (someone : 0 < count) :
    amount ≤ evenShare pool count ↔ (amount - 1) * count < pool := by
  have countPositive : (0 : Int) < count := by
    exact_mod_cast someone
  unfold evenShare
  rw [if_neg (Nat.ne_of_gt someone),
    Int.le_ediv_iff_mul_le countPositive, Int.sub_mul, Int.one_mul]
  omega

/-- No share of a pool is below zero. -/
theorem evenShare_nonneg
    {pool : Int}
    (notNegative : 0 ≤ pool)
    (count : Nat) :
    0 ≤ evenShare pool count := by
  rcases Nat.eq_zero_or_pos count with nobody | someone
  · rw [nobody]
    exact Int.le_refl 0
  · rw [le_evenShare_iff someone]
    omega

/-- As shares are rounded up, each share of a pool that is not empty is positive. -/
theorem evenShare_pos
    {pool : Int}
    (positive : 0 < pool)
    {count : Nat}
    (someone : 0 < count) :
    0 < evenShare pool count := by
  have atLeastOne : 1 ≤ evenShare pool count := by
    rw [le_evenShare_iff someone]
    simpa using positive
  exact atLeastOne

/-- A single account has the whole pool as its share. -/
@[simp] theorem evenShare_one
    (pool : Int) :
    evenShare pool 1 = pool := by
  simp [evenShare]

section Admissions

variable
    {pool minimum : Int}
    {funded waiting : Nat}

/-- Whoever is admitted has a share that meets the minimum. -/
theorem minimum_le_evenShare_of_admissions
    (someone : 0 < admissions pool minimum funded waiting) :
    minimum ≤
      evenShare pool
        (funded + admissions pool minimum funded waiting) := by
  induction waiting with
  | zero =>
      exact (Nat.lt_irrefl 0 someone).elim
  | succ waiting inductionHypothesis =>
      unfold admissions at someone ⊢
      split
      · rename_i tooSmall
        rw [if_pos tooSmall] at someone
        exact inductionHypothesis someone
      · rename_i enough
        exact Int.not_lt.mp enough

/-- Somebody is left out only for a minimum. -/
theorem minimum_pos_of_admissions_lt
    (poolNotNegative : 0 ≤ pool)
    (fewer : admissions pool minimum funded waiting < waiting) :
    0 < minimum := by
  cases waiting with
  | zero =>
      exact (Nat.not_lt_zero _ fewer).elim
  | succ waiting =>
      unfold admissions at fewer
      split at fewer
      · rename_i tooSmall
        exact Int.lt_of_le_of_lt
          (evenShare_nonneg poolNotNegative _) tooSmall
      · exact (Nat.lt_irrefl _ fewer).elim

/-- If nobody was paid before and the pool meets the minimum, somebody is admitted. -/
theorem admissions_pos
    (enough : minimum ≤ pool)
    (someone : 0 < waiting) :
    0 < admissions pool minimum 0 waiting := by
  induction waiting with
  | zero =>
      exact (Nat.lt_irrefl 0 someone).elim
  | succ waiting inductionHypothesis =>
      unfold admissions
      split
      · rename_i tooSmall
        rcases Nat.eq_zero_or_pos waiting with none | more
        · subst none
          rw [evenShare_one] at tooSmall
          exact (Int.not_lt.mpr enough tooSmall).elim
        · exact inductionHypothesis more
      · exact Nat.succ_pos waiting

end Admissions

section OfferShare

variable
    {waits : Account → Bool}
    {share : Int}
    {places : Nat}
    {accounts : List Account}

/-- An offer of a share either is the share or holds a waiting account back. -/
theorem mem_offerShare
    {account : Account}
    {offer : Offer}
    (member :
      (account, offer) ∈ offerShare waits share places accounts) :
    offer = .upTo share ∨
      (offer = .heldBack ∧
        waits account = true ∧
        places < accounts.countP waits) := by
  induction accounts generalizing places with
  | nil =>
      cases member
  | cons first rest inductionHypothesis =>
      simp only [offerShare] at member
      split at member
      · rename_i firstWaits
        rw [List.countP_cons_of_pos firstWaits]
        split at member
        · rcases List.mem_cons.mp member with isFirst | inRest
          · cases isFirst
            exact Or.inr ⟨rfl, firstWaits, Nat.succ_pos _⟩
          · rcases inductionHypothesis inRest with shared | heldBack
            · exact Or.inl shared
            · exact Or.inr ⟨heldBack.1, heldBack.2.1, Nat.succ_pos _⟩
        · rcases List.mem_cons.mp member with isFirst | inRest
          · cases isFirst
            exact Or.inl rfl
          · rcases inductionHypothesis inRest with shared | heldBack
            · exact Or.inl shared
            · exact Or.inr ⟨heldBack.1, heldBack.2.1,
                Nat.succ_lt_succ heldBack.2.2⟩
      · rename_i firstDoesNot
        rw [List.countP_cons_of_neg firstDoesNot]
        rcases List.mem_cons.mp member with isFirst | inRest
        · cases isFirst
          exact Or.inl rfl
        · exact inductionHypothesis inRest

/-- Who does not wait is offered the share. -/
theorem mem_offerShare_of_not_waits
    {account : Account}
    (member : account ∈ accounts)
    (doesNotWait : waits account = false) :
    (account, Offer.upTo share) ∈
      offerShare waits share places accounts := by
  induction accounts generalizing places with
  | nil =>
      cases member
  | cons first rest inductionHypothesis =>
      simp only [offerShare]
      rcases List.mem_cons.mp member with isFirst | inRest
      · subst isFirst
        simp [doesNotWait]
      · split
        · split <;>
            exact List.mem_cons_of_mem _ (inductionHypothesis inRest)
        · exact List.mem_cons_of_mem _ (inductionHypothesis inRest)

/-- If there is a place, the first account that waits is offered the share. -/
theorem exists_waits_mem_offerShare
    (place : 0 < places)
    (someone : 0 < accounts.countP waits) :
    ∃ account ∈ accounts,
      waits account = true ∧
        (account, Offer.upTo share) ∈
          offerShare waits share places accounts := by
  induction accounts with
  | nil =>
      exact (Nat.lt_irrefl 0 someone).elim
  | cons first rest inductionHypothesis =>
      by_cases firstWaits : waits first = true
      · obtain ⟨left, isPlace⟩ := Nat.exists_eq_add_one.mpr place
        subst isPlace
        refine ⟨first, List.mem_cons_self, firstWaits, ?_⟩
        simp [offerShare, firstWaits]
      · rw [List.countP_cons_of_neg firstWaits] at someone
        obtain ⟨account, inRest, accountWaits, offered⟩ :=
          inductionHypothesis someone
        refine
          ⟨account, List.mem_cons_of_mem _ inRest, accountWaits, ?_⟩
        simp only [offerShare, if_neg firstWaits]
        exact List.mem_cons_of_mem _ offered

end OfferShare

namespace Ledger

/-- Those who wait have not been granted anything. -/
theorem granted_eq_zero_of_waits
    {ledger : Ledger}
    {account : Account}
    (waiting : ledger.waits account = true) :
    account.granted = 0 := by
  simp only [waits, Bool.and_eq_true, beq_iff_eq] at waiting
  exact waiting.2

/-- Those who wait are open. -/
theorem opens_of_waits
    {ledger : Ledger}
    {account : Account}
    (waiting : ledger.waits account = true) :
    ledger.opens account = true := by
  simp only [waits, Bool.and_eq_true] at waiting
  exact waiting.1

/-- A greedy pass sets no limits. -/
theorem offer_eq_unlimited_of_greedy
    {ledger : Ledger}
    (greedy : ledger.sharing = .greedy)
    {account : Account}
    {offer : Offer}
    (member : (account, offer) ∈ ledger.offers) :
    offer = .unlimited := by
  rw [offers, greedy] at member
  obtain ⟨other, -, same⟩ := List.mem_map.mp member
  injection same with _ sameOffer
  exact sameOffer.symm

/-- The offers of a pass by the rule of sharing suit the ledger. -/
theorem suits_offers
    {ledger : Ledger}
    (sound : ledger.Sound) :
    ledger.Suits ledger.offers where
  accounts_eq := map_fst_offers ledger
  heldBack := by
    intro account member
    unfold offers at member
    split at member
    · obtain ⟨_, _, same⟩ := List.mem_map.mp member
      cases same
    · rcases mem_offerShare member with shared | ⟨-, waiting, fewer⟩
      · cases shared
      · exact ⟨granted_eq_zero_of_waits waiting,
          minimum_pos_of_admissions_lt sound.pool_nonneg fewer⟩

end Ledger

section Retired

variable
    {minimum pool : Int}

/-- Only accounts that wait for a first check, under a minimum, have dropped out. -/
def RetiredForMinimum
    (minimum : Int)
    (stakes : List Stake) : Prop :=
  ∀ stake ∈ stakes,
    stake.standing = .retired →
      stake.account.granted = 0 ∧ 0 < minimum

/-- Only a stake without anything is blocked, and only by a minimum. -/
theorem Stake.granted_eq_zero_of_isBlocked
    {total : Nat}
    {stake : Stake}
    (blocked : stake.isBlocked minimum pool total = true) :
    stake.account.granted = 0 ∧ 0 < minimum := by
  simp only [isBlocked, Bool.and_eq_true, decide_eq_true_eq] at blocked
  obtain ⟨-, refused⟩ := blocked
  exact ⟨(Account.belowMinimum_inversion refused).2.1,
    Account.minimum_pos_of_belowMinimum refused⟩

/-- The stake that retires next does so for the minimum as well. -/
theorem RetiredForMinimum.retireLast?
    {total : Nat}
    {stakes fewer : List Stake}
    (retired : RetiredForMinimum minimum stakes)
    (found :
      retireLast? (Stake.isBlocked minimum pool total) stakes =
        some fewer) :
    RetiredForMinimum minimum fewer := by
  induction stakes generalizing fewer with
  | nil =>
      cases found
  | cons stake rest inductionHypothesis =>
      have atHead := retired stake List.mem_cons_self
      have inRest : RetiredForMinimum minimum rest :=
        fun later member =>
          retired later (List.mem_cons_of_mem stake member)
      simp only [FollowOn.retireLast?] at found
      split at found
      · rename_i changed laterFound
        injection found with same
        subst same
        exact List.forall_mem_cons.mpr
          ⟨atHead, inductionHypothesis inRest laterFound⟩
      · split at found
        · rename_i blocked
          injection found with same
          subst same
          have waiting := Stake.granted_eq_zero_of_isBlocked blocked
          exact List.forall_mem_cons.mpr ⟨fun _ => waiting, inRest⟩
        · cases found

/-- However many stakes retire, they do so for the minimum. -/
theorem RetiredForMinimum.dropBlocked
    {stakes : List Stake}
    (retired : RetiredForMinimum minimum stakes)
    (drops : Nat) :
    RetiredForMinimum minimum
      (dropBlocked minimum pool drops stakes) := by
  induction drops generalizing stakes with
  | zero =>
      exact retired
  | succ drops inductionHypothesis =>
      simp only [FollowOn.dropBlocked]
      split
      · rename_i fewer found
        exact inductionHypothesis (retired.retireLast? found)
      · exact retired

end Retired

namespace Ledger

/-- Before the first round nobody has retired, so all who have did so for the minimum. -/
theorem retiredForMinimum_stakes
    (weights : List Nat)
    (ledger : Ledger) :
    RetiredForMinimum ledger.minimum (ledger.stakes weights) := by
  intro stake member isRetired
  obtain ⟨placed, -, same⟩ := List.mem_map.mp member
  subst same
  simp only at isRetired
  split at isRetired <;> cases isRetired

/-- The offers of a weighted pass suit the ledger that they are made for. -/
theorem suits_weightedOffers
    (weights : List Nat)
    (ledger : Ledger) :
    ledger.Suits (ledger.weightedOffers weights) where
  accounts_eq := map_fst_weightedOffers weights ledger
  heldBack := by
    intro account member
    obtain ⟨stake, inStakes, same⟩ := List.mem_map.mp member
    injection same with sameAccount isHeldBack
    have retired :
        RetiredForMinimum ledger.minimum
          (ledger.settledStakes weights) :=
      (retiredForMinimum_stakes weights ledger).dropBlocked _
    have standing : stake.standing = .retired := by
      unfold Stake.offer at isHeldBack
      split at isHeldBack
      · cases isHeldBack
      · assumption
      · split at isHeldBack <;> cases isHeldBack
    rw [← sameAccount]
    exact retired stake inStakes standing

end Ledger

end FollowOn

import FollowOn.Proofs.Ledger.Offers

namespace FollowOn

/-!
# Precedence among accounts

The accounts of a ledger stand in ranking order. An account keeps ahead of
another one as long as it is full or has at least as much. A pass by the rule
of sharing keeps each account ahead of all later ones if its cap allows a first
check at all: it is served from a larger pool, on no lesser offer, and it is
held back for the minimum only together with every later account that waits
as well.
-/

/-- What an offer leaves of one amount, it leaves of any amount that is as large. -/
theorem Offer.min_limit_le
    (offer : Offer)
    (amount other : Int) :
    min amount (offer.limit other) ≤ offer.limit amount := by
  cases offer <;> simp only [limit] <;> omega

namespace Account

/-- An account is full, or has at least as much as another one. -/
def KeepsAheadOf (first second : Account) : Prop :=
  min first.cap second.granted ≤ first.granted

section Turns

variable
    {minimum pool later : Int}
    {first second : Account}

/-- On equal offers, whoever is served first keeps ahead. -/
theorem KeepsAheadOf.turn
    (ahead : first.KeepsAheadOf second)
    (firstSound : first.Sound)
    (secondSound : second.Sound)
    (checkFits : minimum ≤ first.cap)
    (pass : Nat)
    (offer : Offer)
    (left :
      later + (first.grant minimum pool offer).amount ≤ pool) :
    (first.turn minimum pool pass offer).KeepsAheadOf
      (second.turn minimum later pass offer) := by
  have firstRoom := firstSound.room_eq
  have firstBounded := firstSound.granted_le_cap
  have firstPaid := first.amount_grant_nonneg minimum pool offer
  have secondNotNegative := secondSound.granted_nonneg
  unfold KeepsAheadOf at ahead ⊢
  rw [granted_turn, granted_turn, cap_turn]
  cases secondGiven : second.grant minimum later offer with
  | closed =>
      have nothing : Grant.closed.amount = 0 := rfl
      omega
  | belowMinimum =>
      have nothing : Grant.belowMinimum.amount = 0 := rfl
      omega
  | paid amount =>
      have bounds := paid_bounds secondGiven
      obtain ⟨-, isLimit, meetsMinimum⟩ := paid_inversion secondGiven
      -- What the second account is paid, the first one is offered too,
      -- unless its room or the pool is less.
      have offered :=
        offer.min_limit_le (min first.room pool)
          (min second.room later)
      rw [← isLimit] at offered
      cases firstGiven : first.grant minimum pool offer with
      | paid firstAmount =>
          obtain ⟨-, firstIsLimit, -⟩ := paid_inversion firstGiven
          simp only [firstGiven, Grant.amount] at left ⊢
          omega
      | closed =>
          simp only [firstGiven, Grant.amount] at left ⊢
          rcases closed_inversion firstGiven with
            settled | noRoom | ⟨offeredNothing, -⟩
          · have full := firstSound.settled_iff.mp settled
            omega
          · omega
          · omega
      | belowMinimum =>
          obtain ⟨-, unpaid, -, tooSmall⟩ :=
            belowMinimum_inversion firstGiven
          simp only [firstGiven, Grant.amount] at left ⊢
          by_cases secondPaid : second.granted = 0
          · have enough := meetsMinimum secondPaid
            omega
          · omega

/-- An account keeps ahead of one that gets nothing. -/
theorem KeepsAheadOf.turn_of_unpaid
    (ahead : first.KeepsAheadOf second)
    {secondOffer : Offer}
    (nothing :
      (second.grant minimum later secondOffer).amount = 0)
    (pass : Nat)
    (pool : Int)
    (offer : Offer) :
    (first.turn minimum pool pass offer).KeepsAheadOf
      (second.turn minimum later pass secondOffer) := by
  have firstPaid := first.amount_grant_nonneg minimum pool offer
  unfold KeepsAheadOf at ahead ⊢
  rw [granted_turn, granted_turn, cap_turn, nothing]
  omega

/-- An account that is not open for its first check gets nothing from a smaller pool. -/
theorem Sound.amount_grant_eq_zero_of_not_open
    (sound : first.Sound)
    (unpaid : first.granted = 0)
    (closed : first.isOpen minimum pool = false)
    (hasPool : 0 < pool)
    (smaller : later ≤ pool)
    (offer : Offer) :
    (first.grant minimum later offer).amount = 0 := by
  have room := sound.room_eq
  have notOpen := mt sound.isOpen_iff.mpr (Bool.eq_false_iff.mp closed)
  cases given : first.grant minimum later offer with
  | closed =>
      rfl
  | belowMinimum =>
      rfl
  | paid amount =>
      have bounds := paid_bounds given
      obtain ⟨-, -, meetsMinimum⟩ := paid_inversion given
      have enough := meetsMinimum unpaid
      exact (notOpen ⟨by omega, hasPool, fun _ => by omega⟩).elim

end Turns

end Account

/--
In a pass, what holds between the turns of any two accounts whose offers are
apart, the later one served from what the earlier one leaves, holds along the
accounts after the pass.
-/
theorem pairwise_serve
    {minimum pool : Int}
    {pass : Nat}
    {apart : Account × Offer → Account × Offer → Prop}
    {along : Account → Account → Prop}
    {offers : List (Account × Offer)}
    (poolNotNegative : 0 ≤ pool)
    (pairs : offers.Pairwise apart)
    (turns :
      ∀ first second earlier later,
        apart first second →
        earlier ≤ pool →
        later +
            (first.1.grant minimum earlier first.2).amount ≤
          earlier →
        along
          (first.1.turn minimum earlier pass first.2)
          (second.1.turn minimum later pass second.2)) :
    ((serve minimum pool offers).map fun (account, grant) =>
      account.receive pass grant).Pairwise along := by
  induction offers generalizing pool with
  | nil =>
      exact .nil
  | cons first rest inductionHypothesis =>
      obtain ⟨account, offer⟩ := first
      obtain ⟨headApart, restPairs⟩ := List.pairwise_cons.mp pairs
      have paid := account.amount_grant_nonneg minimum pool offer
      have left :=
        sub_amount_grant_nonneg poolNotNegative minimum account offer
      refine .cons ?_ ?_
      · intro after member
        obtain ⟨offered, inRest, later, atMost, -, isTurn⟩ :=
          exists_mem_left_of_forall₂
            (forall₂_serve left pass rest) member
        rw [isTurn]
        exact turns (account, offer) offered pool later
          (headApart offered inRest) (Int.le_refl pool)
          (by simp only; omega)
      · refine inductionHypothesis left restPairs ?_
        intro earlierOffered laterOffered earlier later isApart atMost
        exact turns earlierOffered laterOffered earlier later isApart
          (by omega)

/-- Without a place left, only accounts that do not wait are offered a share. -/
theorem mem_offerShare_zero
    {waits : Account → Bool}
    {share : Int}
    {accounts : List Account}
    {offered : Account × Offer}
    (member : offered ∈ offerShare waits share 0 accounts) :
    offered.2 = .heldBack ∨ waits offered.1 = false := by
  induction accounts with
  | nil =>
      cases member
  | cons first rest inductionHypothesis =>
      simp only [offerShare] at member
      split at member
      · rcases List.mem_cons.mp member with isFirst | inRest
        · rw [isFirst]
          exact Or.inl rfl
        · exact inductionHypothesis inRest
      · rename_i doesNotWait
        rcases List.mem_cons.mp member with isFirst | inRest
        · rw [isFirst]
          exact Or.inr (Bool.eq_false_iff.mpr doesNotWait)
        · exact inductionHypothesis inRest

/--
The later of two accounts has the offer of the earlier one or is held back,
unless only the earlier one waits for its first check.
-/
def NoBetterOffer
    (waits : Account → Bool)
    (first second : Account × Offer) : Prop :=
  second.2 = first.2 ∨
    second.2 = .heldBack ∨
    (waits first.1 = true ∧ waits second.1 = false)

/-- Nobody further back is offered more than one before who waits as well. -/
theorem pairwise_offerShare
    (waits : Account → Bool)
    (share : Int)
    (places : Nat)
    (accounts : List Account) :
    (offerShare waits share places accounts).Pairwise
      (NoBetterOffer waits) := by
  induction accounts generalizing places with
  | nil =>
      exact .nil
  | cons first rest inductionHypothesis =>
      have afterShare :
          ∀ {left : Nat},
            ∀ second ∈ offerShare waits share left rest,
              NoBetterOffer waits (first, .upTo share) second := by
        intro left second member
        rcases mem_offerShare member with shared | ⟨heldBack, -⟩
        · exact Or.inl shared
        · exact Or.inr (Or.inl heldBack)
      simp only [offerShare]
      split
      · rename_i firstWaits
        cases places with
        | zero =>
            refine .cons ?_ (inductionHypothesis 0)
            intro second member
            rcases mem_offerShare_zero member with
              heldBack | doesNotWait
            · exact Or.inl heldBack
            · exact Or.inr (Or.inr ⟨firstWaits, doesNotWait⟩)
        | succ left =>
            exact .cons afterShare (inductionHypothesis left)
      · exact .cons afterShare (inductionHypothesis places)

namespace Ledger

variable
    {ledger : Ledger}

/-- The accounts that a sound ledger makes offers to are sound. -/
theorem Sound.account_of_mem_offers
    (sound : ledger.Sound)
    {offered : Account × Offer}
    (member : offered ∈ ledger.offers) :
    offered.1.Sound := by
  apply sound.accounts_sound
  rw [← map_fst_offers ledger]
  exact List.mem_map_of_mem member

/-- In no pass is a better offer made to someone further back. -/
theorem pairwise_offers
    (ledger : Ledger) :
    ledger.offers.Pairwise (NoBetterOffer ledger.waits) := by
  unfold offers
  split
  · rw [List.pairwise_map]
    exact List.pairwise_of_forall fun _ _ => Or.inl rfl
  · exact pairwise_offerShare ..

/-- Every account whose cap allows a first check keeps ahead of all later ones. -/
def RespectsRanking (ledger : Ledger) : Prop :=
  ledger.accounts.Pairwise fun first second =>
    ledger.minimum ≤ first.cap → first.KeepsAheadOf second

/-- A pass by the rule of sharing respects the ranking. -/
theorem RespectsRanking.runPass
    (respects : ledger.RespectsRanking)
    (sound : ledger.Sound) :
    ledger.runPass.1.RespectsRanking := by
  unfold RespectsRanking at respects
  rw [← map_fst_offers ledger, List.pairwise_map] at respects
  have pairs :=
    List.Pairwise.and_mem.mp (respects.and (pairwise_offers ledger))
  refine pairwise_serve sound.pool_nonneg pairs ?_
  intro first second earlier later isPair atMost left checkFits
  obtain ⟨firstMember, secondMember, ahead, noBetter⟩ := isPair
  rw [Account.cap_turn] at checkFits
  have firstSound := sound.account_of_mem_offers firstMember
  have secondSound := sound.account_of_mem_offers secondMember
  have keepsAhead := ahead checkFits
  rcases noBetter with sameOffer | heldBack | ⟨firstWaits, secondDoesNot⟩
  · rw [sameOffer]
    exact keepsAhead.turn firstSound secondSound checkFits _ _ left
  · apply keepsAhead.turn_of_unpaid
    rw [heldBack]
    exact second.1.amount_grant_heldBack ledger.minimum later
  · -- Whoever waits has nothing, so nobody behind has anything either;
    -- and one behind who does not wait is not open for a first check.
    have firstUnpaid := granted_eq_zero_of_waits firstWaits
    have opens := opens_of_waits firstWaits
    obtain ⟨belowCap, hasPool, -⟩ := firstSound.isOpen_iff.mp opens
    have notNegative := secondSound.granted_nonneg
    have secondUnpaid : second.1.granted = 0 := by
      unfold Account.KeepsAheadOf at keepsAhead
      omega
    have notOpen : ledger.opens second.1 = false := by
      simpa [waits, secondUnpaid] using secondDoesNot
    have paid :=
      first.1.amount_grant_nonneg ledger.minimum earlier first.2
    apply keepsAhead.turn_of_unpaid
    exact secondSound.amount_grant_eq_zero_of_not_open secondUnpaid
      notOpen hasPool (by omega) second.2

end Ledger

end FollowOn

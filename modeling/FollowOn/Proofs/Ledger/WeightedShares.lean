import FollowOn.Proofs.Ledger.Proportion
import FollowOn.Proofs.Ledger.Stakes
import Mathlib.Algebra.BigOperators.Ring.Finset

namespace FollowOn

/-!
# What a weighted pass pays

The shares of the accounts that take part in a weighted pass to its end fit into
its pool together. So the pool never runs out before an account has its turn,
and each is paid its share as far as it has room, whoever is served before it.
Nobody who is left would be refused a first check out of its share.
-/

namespace Account

/-- A limit of zero leaves nothing to grant. -/
theorem amount_grant_upTo_zero
    (minimum pool : Int)
    (account : Account) :
    (account.grant minimum pool (.upTo 0)).amount = 0 := by
  cases given : account.grant minimum pool (.upTo 0) with
  | closed =>
      rfl
  | belowMinimum =>
      rfl
  | paid amount =>
      have positive := (paid_bounds given).1
      obtain ⟨-, offered, -⟩ := paid_inversion given
      simp only [Offer.limit] at offered
      omega

section Share

variable
    {account : Account}
    (sound : account.Sound)
    {minimum pool share : Int}
    (shareNotNegative : 0 ≤ share)
    (fits : share ≤ pool)

include sound shareNotNegative fits

/-- A share that the pool can pay and that is enough for a first check is paid. -/
theorem Sound.amount_grant_upTo_of_fits
    (enough :
      account.granted = 0 →
        account.granted < account.cap →
        minimum ≤ min account.room share) :
    (account.grant minimum pool (.upTo share)).amount =
      min account.room share := by
  have room := sound.room_eq
  have bounded := sound.granted_le_cap
  cases given : account.grant minimum pool (.upTo share) with
  | paid amount =>
      obtain ⟨-, offered, -⟩ := paid_inversion given
      simp only [Offer.limit] at offered
      simp only [Grant.amount]
      omega
  | belowMinimum =>
      obtain ⟨-, unpaid, hasRoom, tooSmall⟩ :=
        belowMinimum_inversion given
      have atLeast := enough unpaid (by omega)
      simp only [Offer.limit] at tooSmall
      omega
  | closed =>
      simp only [Grant.amount]
      rcases closed_inversion given with
        settled | noRoom | ⟨offeredNothing, -⟩
      · have full := sound.settled_iff.mp settled
        omega
      · omega
      · simp only [Offer.limit] at offeredNothing
        omega

/-- An account that is not refused its share has enough of it for a first check. -/
theorem Sound.minimum_le_of_not_refused
    (hasPool : 0 < pool)
    (accepted :
      account.grant minimum pool (.upTo share) ≠ .belowMinimum)
    (unpaid : account.granted = 0)
    (belowCap : account.granted < account.cap) :
    minimum ≤ min account.room share := by
  have room := sound.room_eq
  cases given : account.grant minimum pool (.upTo share) with
  | belowMinimum =>
      exact (accepted given).elim
  | paid amount =>
      obtain ⟨-, offered, meetsMinimum⟩ := paid_inversion given
      have atLeast := meetsMinimum unpaid
      simp only [Offer.limit] at offered
      omega
  | closed =>
      have noMinimum :=
        (sound.limit_eq_zero_of_closed belowCap hasPool given).2 unpaid
      omega

end Share

end Account

namespace Stake

/-- No proportional limit is below zero. -/
theorem limit_nonneg
    (pool : Int)
    (total : Nat)
    (stake : Stake) :
    0 ≤ stake.limit pool total := by
  unfold limit
  split
  · exact Int.le_refl 0
  · exact Int.natCast_nonneg _

/-- A stake that takes no part has a limit of zero. -/
theorem limit_eq_zero
    {stake : Stake}
    (takesNoPart : stake.isAdmitted = false)
    (pool : Int)
    (total : Nat) :
    stake.limit pool total = 0 :=
  if_pos (Or.inl takesNoPart)

/-- An admitted stake is offered its limit. -/
theorem offer_of_isAdmitted
    {stake : Stake}
    (isAdmitted : stake.isAdmitted = true)
    (pool : Int)
    (total : Nat) :
    stake.offer pool total = .upTo (stake.limit pool total) := by
  have standing : stake.standing = .admitted := by
    simpa [Stake.isAdmitted] using isAdmitted
  simp only [offer, limit, standing, isAdmitted, Bool.true_eq_false,
    false_or]
  split <;> rfl

/-- A stake that takes no part is granted nothing. -/
theorem amount_grant_of_not_isAdmitted
    {stake : Stake}
    (takesNoPart : stake.isAdmitted = false)
    (minimum left pool : Int)
    (total : Nat) :
    (stake.account.grant minimum left
      (stake.offer pool total)).amount = 0 := by
  unfold offer
  cases standing : stake.standing with
  | outside =>
      exact Account.amount_grant_upTo_zero ..
  | retired =>
      exact Account.amount_grant_heldBack ..
  | admitted =>
      simp [isAdmitted, standing] at takesNoPart

end Stake

/-- Items without an amount may be left out of a sum. -/
theorem sum_map_filter_eq
    {α β : Type}
    [AddMonoid β]
    {amount : α → β}
    {takesPart : α → Bool}
    {items : List α}
    (nothing :
      ∀ item ∈ items, takesPart item = false → amount item = 0) :
    ((items.filter takesPart).map amount).sum =
      (items.map amount).sum := by
  induction items with
  | nil =>
      rfl
  | cons item rest inductionHypothesis =>
      obtain ⟨itemNothing, restNothing⟩ :=
        List.forall_mem_cons.mp nothing
      have followed := inductionHypothesis restNothing
      by_cases takes : takesPart item = true
      · simp [takes, followed]
      · have left := itemNothing (eq_false_of_ne_true takes)
        simp [takes, followed, left]

section Shares

variable
    {pool : Int}
    (poolNotNegative : 0 ≤ pool)
    (poolAtMost : pool ≤ Amount.greatest)

include poolNotNegative poolAtMost

/-- The shares of the accounts that take part fit into the pool together. -/
theorem sum_limit_admitted_le
    (stakes : List Stake) :
    ((stakes.filter Stake.isAdmitted).map
        (Stake.limit pool (admittedWeight stakes))).sum ≤
      pool := by
  have admittedLimit :
      ∀ stake ∈ stakes.filter Stake.isAdmitted,
        stake.limit pool (admittedWeight stakes) =
          if admittedWeight stakes = 0 then
            0
          else
            (proportionalShare pool.toNat stake.weight
              (admittedWeight stakes) : Int) := by
    intro stake member
    have isAdmitted := (List.mem_filter.mp member).2
    simp [Stake.limit, isAdmitted]
  rw [List.map_congr_left admittedLimit]
  by_cases noWeight : admittedWeight stakes = 0
  · simpa [noWeight] using poolNotNegative
  · have smallPool : pool.toNat < 2 ^ 63 := by
      simp only [Amount.greatest] at poolAtMost
      omega
    have together := sum_proportionalShare_le smallPool noWeight
    have inWhole :
        ((stakes.filter Stake.isAdmitted).map fun stake =>
            (proportionalShare pool.toNat stake.weight
              (admittedWeight stakes) : Int)).sum =
          (((stakes.filter Stake.isAdmitted).map Stake.weight).map
            fun weight =>
              proportionalShare pool.toNat weight
                (admittedWeight stakes)).sum := by
      rw [Nat.cast_list_sum, List.map_map, List.map_map]
      rfl
    simp only [noWeight, if_false, inWhole]
    simp only [admittedWeight] at together ⊢
    omega

end Shares

/-- Only accounts that take part have a share. -/
theorem sum_limit_admitted
    (pool : Int)
    (total : Nat)
    (stakes : List Stake) :
    ((stakes.filter Stake.isAdmitted).map
        (Stake.limit pool total)).sum =
      (stakes.map (Stake.limit pool total)).sum :=
  sum_map_filter_eq fun _ _ takesNoPart =>
    Stake.limit_eq_zero takesNoPart pool total

/-- What a share comes to when the account has no room for all of it. -/
def Stake.payment
    (pool : Int)
    (total : Nat)
    (stake : Stake) :
    Int :=
  min stake.account.room (stake.limit pool total)

/-- A stake that takes no part is due no payment. -/
theorem Stake.payment_of_not_isAdmitted
    {stake : Stake}
    (takesNoPart : stake.isAdmitted = false)
    (pool : Int)
    (total : Nat) :
    stake.payment pool total = 0 := by
  rw [payment, limit_eq_zero takesNoPart]
  exact Int.min_eq_right stake.account.room_nonneg

/-- The offers of a weighted pass to the accounts of some stakes. -/
def stakeOffers
    (pool : Int)
    (total : Nat)
    (stakes : List Stake) :
    List (Account × Offer) :=
  stakes.map fun stake => (stake.account, stake.offer pool total)

/-- While the pool can pay all shares, each account is paid its own, whoever comes first. -/
theorem map_granted_serve_stakeOffers
    {minimum pool left : Int}
    {total : Nat}
    {stakes : List Stake}
    (pays :
      ∀ stake ∈ stakes,
        ∀ left,
          stake.limit pool total ≤ left →
          (stake.account.grant minimum left
            (stake.offer pool total)).amount =
              stake.payment pool total)
    (fits : (stakes.map (Stake.limit pool total)).sum ≤ left)
    (pass : Nat) :
    ((serve minimum left (stakeOffers pool total stakes)).map
        fun (account, grant) =>
          account.receive pass grant).map Account.granted =
      stakes.map fun stake =>
        stake.account.granted + stake.payment pool total := by
  induction stakes generalizing left with
  | nil =>
      rfl
  | cons stake rest inductionHypothesis =>
      obtain ⟨stakePays, restPays⟩ := List.forall_mem_cons.mp pays
      have restNotNegative :
          0 ≤ (rest.map (Stake.limit pool total)).sum := by
        apply List.sum_nonneg
        intro limit member
        obtain ⟨later, -, same⟩ := List.mem_map.mp member
        rw [← same]
        exact later.limit_nonneg pool total
      rw [List.map_cons, List.sum_cons] at fits
      have paid := stakePays left (by omega)
      have withinLimit :
          stake.payment pool total ≤ stake.limit pool total :=
        Int.min_le_right _ _
      have restFits :
          (rest.map (Stake.limit pool total)).sum ≤
            left - stake.payment pool total := by
        omega
      have followed := inductionHypothesis restPays restFits
      have first :=
        stake.account.granted_turn minimum left pass
          (stake.offer pool total)
      simp only [Account.turn] at first
      simp only [stakeOffers] at followed ⊢
      simp only [List.map_cons, serve, first, paid, followed]

namespace Ledger

variable
    {weights : List Nat}
    {ledger : Ledger}

section Payment

variable
    (sound : ledger.Sound)
    (poolAtMost : ledger.pool ≤ Amount.greatest)

include sound poolAtMost

/-- No proportional limit exceeds the pool. -/
theorem limit_le_pool
    {stake : Stake}
    (member : stake ∈ ledger.settledStakes weights) :
    stake.limit ledger.pool (ledger.weightLeft weights) ≤
      ledger.pool := by
  have together :=
    sum_limit_admitted_le sound.pool_nonneg poolAtMost
      (ledger.settledStakes weights)
  rw [sum_limit_admitted] at together
  refine Int.le_trans (List.single_le_sum ?_ _ ?_) together
  · intro limit inLimits
    obtain ⟨other, -, same⟩ := List.mem_map.mp inLimits
    rw [← same]
    exact other.limit_nonneg ..
  · exact List.mem_map_of_mem member

/-- Whoever takes part to the end has enough of a share for a first check. -/
theorem minimum_le_payment
    {stake : Stake}
    (member : stake ∈ ledger.settledStakes weights)
    (isAdmitted : stake.isAdmitted = true)
    (unpaid : stake.account.granted = 0) :
    ledger.minimum ≤
      stake.payment ledger.pool (ledger.weightLeft weights) := by
  have accountSound := sound_of_mem_settledStakes sound member
  obtain ⟨belowCap, hasPool, -⟩ :=
    accountSound.isOpen_iff.mp
      (opens_of_mem_settledStakes member isAdmitted)
  have accepted := not_isBlocked_settledStakes member
  rw [Stake.isBlocked, isAdmitted, Bool.true_and,
    decide_eq_false_iff_not,
    Stake.offer_of_isAdmitted isAdmitted] at accepted
  exact
    accountSound.minimum_le_of_not_refused (stake.limit_nonneg ..)
      (limit_le_pool sound poolAtMost member) hasPool accepted unpaid
      belowCap

/-- Out of any pool that can pay its share, an account is paid its share. -/
theorem amount_grant_offer_of_fits
    {stake : Stake}
    (member : stake ∈ ledger.settledStakes weights)
    {left : Int}
    (fits :
      stake.limit ledger.pool (ledger.weightLeft weights) ≤ left) :
    (stake.account.grant ledger.minimum left
      (stake.offer ledger.pool (ledger.weightLeft weights))).amount =
        stake.payment ledger.pool (ledger.weightLeft weights) := by
  cases isAdmitted : stake.isAdmitted with
  | false =>
      rw [Stake.amount_grant_of_not_isAdmitted isAdmitted,
        Stake.payment_of_not_isAdmitted isAdmitted]
  | true =>
      rw [Stake.offer_of_isAdmitted isAdmitted]
      exact
        (sound_of_mem_settledStakes sound
          member).amount_grant_upTo_of_fits
          (stake.limit_nonneg ..) fits
          fun unpaid _ =>
            minimum_le_payment sound poolAtMost member isAdmitted
              unpaid

/-- In whatever order the accounts of a weighted pass are served, each is paid its share. -/
theorem map_granted_runOffers_of_perm
    {order : List Stake}
    (reordered : order.Perm (ledger.settledStakes weights)) :
    (ledger.runOffers
        (stakeOffers ledger.pool (ledger.weightLeft weights)
          order)).1.accounts.map Account.granted =
      order.map fun stake =>
        stake.account.granted +
          stake.payment ledger.pool (ledger.weightLeft weights) := by
  refine map_granted_serve_stakeOffers ?_ ?_ (ledger.passes + 1)
  · intro stake member left fits
    exact
      amount_grant_offer_of_fits sound poolAtMost
        (reordered.mem_iff.mp member) fits
  · rw [(reordered.map _).sum_eq, ← sum_limit_admitted]
    exact
      sum_limit_admitted_le sound.pool_nonneg poolAtMost
        (ledger.settledStakes weights)

end Payment

/--
What a weighted pass does: after the blocked accounts have dropped out, each
account that is left is paid its share of the pool, by its own shifted weight,
as far as it has room, and the others nothing.
-/
structure PaysShares
    (weights : List Nat)
    (ledger : Ledger) : Prop where
  /-- Accounts keep their places and weights; a weight that is missing counts as none. -/
  stakes_eq :
    ((ledger.settledStakes weights).map fun stake =>
        (stake.account, stake.weight)) =
      ledger.accounts.zipIdx.map fun (account, place) =>
        (account, (normalizeWeights weights)[place]?.getD 0)
  opens_of_isAdmitted :
    ∀ stake ∈ ledger.settledStakes weights,
      stake.isAdmitted = true → ledger.opens stake.account = true
  /-- The dropping out has come to its end. -/
  nobody_blocked :
    ∀ stake ∈ ledger.settledStakes weights,
      stake.isBlocked ledger.minimum ledger.pool
        (ledger.weightLeft weights) = false
  sum_shares_le :
    (((ledger.settledStakes weights).filter Stake.isAdmitted).map
        (Stake.limit ledger.pool (ledger.weightLeft weights))).sum ≤
      ledger.pool
  granted_eq :
    (ledger.runWeighted weights).1.accounts.map Account.granted =
      (ledger.settledStakes weights).map fun stake =>
        stake.account.granted +
          if stake.isAdmitted then
            min stake.account.room
              (stake.limit ledger.pool (ledger.weightLeft weights))
          else
            0
  minimum_le_share :
    ∀ stake ∈ ledger.settledStakes weights,
      stake.isAdmitted = true →
        stake.account.granted = 0 →
        ledger.minimum ≤
          min stake.account.room
            (stake.limit ledger.pool (ledger.weightLeft weights))
  /-- Nobody is paid more or less when the accounts are served in another order. -/
  granted_eq_of_perm :
    ∀ order : List Stake,
      order.Perm (ledger.settledStakes weights) →
        (ledger.runOffers
            (stakeOffers ledger.pool (ledger.weightLeft weights)
              order)).1.accounts.map Account.granted =
          order.map fun stake =>
            stake.account.granted +
              if stake.isAdmitted then
                min stake.account.room
                  (stake.limit ledger.pool
                    (ledger.weightLeft weights))
              else
                0

/--
Whatever was done before to a ledger of new accounts, and whatever its weights
are, a weighted pass pays every account that is left in it exactly its share,
as far as there is room: the shares never exceed the pool, though a long weight
may be rounded up, so it does not matter who is served first.
-/
theorem weighted_pass_pays_shares
    (caps : List (String × Cap))
    {pool : Int}
    (isAmount : pool ≤ Amount.greatest)
    (commands : List LedgerCommand)
    (weights : List Nat) :
    ((fresh caps pool).performAll commands).PaysShares weights := by
  have startSound := sound_fresh caps pool
  have sound := startSound.performAll commands
  have poolAtMost :
      ((fresh caps pool).performAll commands).pool ≤
        Amount.greatest :=
    Int.le_trans (startSound.developsInto_performAll commands).pool_le
      (Int.max_le.mpr ⟨by decide, isAmount⟩)
  generalize (fresh caps pool).performAll commands = ledger at *
  have paid :
      ∀ order : List Stake,
        order.Perm (ledger.settledStakes weights) →
          (ledger.runOffers
              (stakeOffers ledger.pool (ledger.weightLeft weights)
                order)).1.accounts.map Account.granted =
            order.map fun stake =>
              stake.account.granted +
                if stake.isAdmitted then
                  stake.payment ledger.pool
                    (ledger.weightLeft weights)
                else
                  0 := by
    intro order reordered
    rw [map_granted_runOffers_of_perm sound poolAtMost reordered]
    apply List.map_congr_left
    intro stake _
    cases isAdmitted : stake.isAdmitted with
    | true => rfl
    | false => simp [Stake.payment_of_not_isAdmitted isAdmitted]
  exact {
    stakes_eq := map_account_weight_settledStakes weights ledger
    opens_of_isAdmitted := fun _ member =>
      opens_of_mem_settledStakes member
    nobody_blocked := fun _ member =>
      not_isBlocked_settledStakes member
    sum_shares_le :=
      sum_limit_admitted_le sound.pool_nonneg poolAtMost _
    granted_eq := paid _ (List.Perm.refl _)
    minimum_le_share := fun _ member =>
      minimum_le_payment sound poolAtMost member
    granted_eq_of_perm := paid }

/-- A long weight has its share rounded up, to the whole pool; beside it a short one has none. -/
theorem weighted_pass_pays_shares_longWeight :
    let ledger :=
      fresh
        [("a", ⟨Amount.greatest, .stageMultiple, false, Ratio.one⟩),
          ("b", ⟨Amount.greatest, .stageMultiple, false, Ratio.one⟩)]
        Amount.greatest
    Amount.greatest ≤ Amount.greatest ∧
      (ledger.performAll []).PaysShares [2 ^ 66, 7] ∧
      Amount.greatest.toNat * 2 ^ 66 / (2 ^ 66 + 7) <
        Amount.greatest ∧
      (ledger.runWeighted [2 ^ 66, 7]).1.accounts.map
        Account.granted = [Amount.greatest, 0] := by
  refine ⟨Int.le_refl _, ?_, by decide, by decide⟩
  exact weighted_pass_pays_shares _ (Int.le_refl _) [] _

end Ledger

end FollowOn

import FollowOn.Proofs.Ledger.Turn
import Mathlib.Data.List.Forall2

namespace FollowOn

/-!
# What a pass does

A pass is a turn of each account, in order, over a pool that only shrinks. So
the accounts before and after a pass are related one by one: `forall₂_turns`
gives each account its offer and the pool at its turn, which lies between the
pools before and after the pass. Capital is moved but neither made nor lost,
and a sound ledger stays sound.
-/

/-- Each item of the right list has its partner in the left one. -/
theorem exists_mem_left_of_forall₂
    {α β : Type}
    {related : α → β → Prop}
    {left : List α}
    {right : List β}
    (lists : List.Forall₂ related left right)
    {second : β}
    (member : second ∈ right) :
    ∃ first ∈ left, related first second := by
  induction lists with
  | nil =>
      cases member
  | @cons head headImage rest restImage headRelated _ inductionHypothesis =>
      rcases List.mem_cons.mp member with isHead | inRest
      · subst isHead
        exact ⟨head, List.mem_cons_self, headRelated⟩
      · obtain ⟨first, inLeft, firstRelated⟩ :=
          inductionHypothesis inRest
        exact ⟨first, List.mem_cons_of_mem head inLeft, firstRelated⟩

/--
An account has its turn in a pass: it faces its offer when some pool is left,
at most the pool before the pass, and after its payment at least the pool
after the pass.
-/
def HasTurn
    (minimum before after : Int)
    (pass : Nat)
    (offered : Account × Offer)
    (account : Account) : Prop :=
  ∃ pool,
    pool ≤ before ∧
      after + (offered.1.grant minimum pool offered.2).amount ≤ pool ∧
      account = offered.1.turn minimum pool pass offered.2

/-- A turn that was due to a pool is due to any larger one before it. -/
theorem HasTurn.of_le
    {minimum before earlier after : Int}
    {pass : Nat}
    {offered : Account × Offer}
    {account : Account}
    (hasTurn : HasTurn minimum before after pass offered account)
    (larger : before ≤ earlier) :
    HasTurn minimum earlier after pass offered account := by
  obtain ⟨pool, atMost, atLeast, same⟩ := hasTurn
  exact ⟨pool, Int.le_trans atMost larger, atLeast, same⟩

/-- An account leaves some of the pool at its turn. -/
theorem sub_amount_grant_nonneg
    {pool : Int}
    (poolNotNegative : 0 ≤ pool)
    (minimum : Int)
    (account : Account)
    (offer : Offer) :
    0 ≤ pool - (account.grant minimum pool offer).amount :=
  Int.sub_nonneg_of_le
    (Account.amount_grant_le poolNotNegative offer account)

/-- What serving leaves, the others leave of what the first one has left. -/
theorem sub_totalGranted_serve_cons
    (minimum pool : Int)
    (account : Account)
    (offer : Offer)
    (rest : List (Account × Offer)) :
    pool - totalGranted (serve minimum pool ((account, offer) :: rest)) =
      pool - (account.grant minimum pool offer).amount -
        totalGranted
          (serve minimum
            (pool - (account.grant minimum pool offer).amount)
            rest) := by
  simp only [serve, totalGranted, List.map_cons, List.sum_cons]
  omega

/-- Serving gives each account its turn. -/
theorem forall₂_serve
    {minimum pool : Int}
    (poolNotNegative : 0 ≤ pool)
    (pass : Nat)
    (offers : List (Account × Offer)) :
    List.Forall₂
      (HasTurn minimum pool
        (pool - totalGranted (serve minimum pool offers)) pass)
      offers
      ((serve minimum pool offers).map fun (account, grant) =>
        account.receive pass grant) := by
  induction offers generalizing pool with
  | nil =>
      exact .nil
  | cons first rest inductionHypothesis =>
      obtain ⟨account, offer⟩ := first
      have paid := account.amount_grant_nonneg minimum pool offer
      have left :=
        sub_amount_grant_nonneg poolNotNegative minimum account offer
      have restMoved :
          0 ≤ totalGranted
            (serve minimum
              (pool - (account.grant minimum pool offer).amount)
              rest) :=
        (totalGranted_bounds left rest).1
      -- The others are served from what this account leaves, but
      -- the pass ends with the same pool for all of them.
      rw [sub_totalGranted_serve_cons]
      refine .cons ⟨pool, Int.le_refl pool, ?_, rfl⟩ ?_
      · simp only
        omega
      · refine (inductionHypothesis left).imp ?_
        intro offered after hasTurn
        exact hasTurn.of_le (by omega)

/-- What the accounts hold grows by what the pass grants. -/
theorem sum_granted_serve
    (minimum pool : Int)
    (pass : Nat)
    (offers : List (Account × Offer)) :
    (((serve minimum pool offers).map fun (account, grant) =>
        account.receive pass grant).map Account.granted).sum =
      (offers.map fun (account, _) => account.granted).sum +
        totalGranted (serve minimum pool offers) := by
  induction offers generalizing pool with
  | nil =>
      rfl
  | cons first rest inductionHypothesis =>
      obtain ⟨account, offer⟩ := first
      have atHead := account.granted_turn minimum pool pass offer
      have inRest :=
        inductionHypothesis
          (pool - (account.grant minimum pool offer).amount)
      simp only [Account.turn] at atHead
      simp only [totalGranted] at inRest ⊢
      simp only [serve, List.map_cons, List.sum_cons, atHead, inRest]
      omega

namespace Ledger

/-- The amounts of a ledger and of its accounts make sense. -/
structure Sound (ledger : Ledger) : Prop where
  pool_nonneg : 0 ≤ ledger.pool
  minimum_nonneg : 0 ≤ ledger.minimum
  accounts_sound : ∀ account ∈ ledger.accounts, account.Sound

/-- All capital of a ledger, granted or not. -/
def capital (ledger : Ledger) : Int :=
  ledger.pool + ledger.allocatedTotal

/--
Offers that suit a ledger: one for each account, in order; and only an account
that waits for its first check is held back, and only for a minimum.
-/
structure Suits
    (ledger : Ledger)
    (offers : List (Account × Offer)) : Prop where
  accounts_eq : offers.map Prod.fst = ledger.accounts
  heldBack :
    ∀ account,
      (account, Offer.heldBack) ∈ offers →
        account.granted = 0 ∧ 0 < ledger.minimum

section RunOffers

variable
    {ledger : Ledger}
    {offers : List (Account × Offer)}

/-- A pass does not change the minimum. -/
@[simp] theorem minimum_runOffers :
    (ledger.runOffers offers).1.minimum = ledger.minimum := rfl

/-- A pass takes from the pool, and no more than there is. -/
theorem pool_runOffers_bounds
    (sound : ledger.Sound)
    (offers : List (Account × Offer)) :
    0 ≤ (ledger.runOffers offers).1.pool ∧
      (ledger.runOffers offers).1.pool ≤ ledger.pool := by
  have bounds :
      0 ≤ totalGranted (serve ledger.minimum ledger.pool offers) ∧
        totalGranted (serve ledger.minimum ledger.pool offers) ≤
          ledger.pool :=
    totalGranted_bounds sound.pool_nonneg offers
  simp only [runOffers]
  omega

/-- Each account of a ledger after a pass had its turn at its place. -/
theorem forall₂_turns
    (sound : ledger.Sound)
    (offers : List (Account × Offer)) :
    List.Forall₂
      (HasTurn ledger.minimum ledger.pool
        (ledger.runOffers offers).1.pool (ledger.passes + 1))
      offers
      (ledger.runOffers offers).1.accounts :=
  forall₂_serve sound.pool_nonneg (ledger.passes + 1) offers

/-- The accounts after a pass are those before it, each after its turn. -/
theorem forall₂_accounts_of_turns
    (sound : ledger.Sound)
    (suits : ledger.Suits offers)
    {related : Account → Account → Prop}
    (turns :
      ∀ account offer after,
        (account, offer) ∈ offers →
        HasTurn ledger.minimum ledger.pool
          (ledger.runOffers offers).1.pool (ledger.passes + 1)
          (account, offer) after →
        related account after) :
    List.Forall₂ related
      ledger.accounts
      (ledger.runOffers offers).1.accounts := by
  rw [← suits.accounts_eq, List.forall₂_map_left_iff]
  have withOffers :=
    (List.forall₂_and_left offers _).mpr
      ⟨fun offered (member : offered ∈ offers) => member,
        forall₂_turns sound offers⟩
  refine withOffers.imp ?_
  rintro ⟨account, offer⟩ after ⟨member, hasTurn⟩
  exact turns account offer after member hasTurn

/-- Every account after a pass comes from an account that had its turn. -/
theorem exists_turn_of_mem
    (sound : ledger.Sound)
    (suits : ledger.Suits offers)
    {after : Account}
    (member : after ∈ (ledger.runOffers offers).1.accounts) :
    ∃ account offer,
      account ∈ ledger.accounts ∧
        (account, offer) ∈ offers ∧
        HasTurn ledger.minimum ledger.pool
          (ledger.runOffers offers).1.pool (ledger.passes + 1)
          (account, offer) after := by
  obtain ⟨⟨account, offer⟩, inOffers, hasTurn⟩ :=
    exists_mem_left_of_forall₂
      (forall₂_turns sound offers) member
  have inLedger : account ∈ ledger.accounts := by
    rw [← suits.accounts_eq]
    exact List.mem_map_of_mem inOffers
  exact ⟨account, offer, inLedger, inOffers, hasTurn⟩

/-- A pass with offers that suit a sound ledger leaves it sound. -/
theorem Sound.runOffers
    (sound : ledger.Sound)
    (suits : ledger.Suits offers) :
    (ledger.runOffers offers).1.Sound where
  pool_nonneg := (pool_runOffers_bounds sound offers).1
  minimum_nonneg := sound.minimum_nonneg
  accounts_sound := by
    intro after member
    obtain ⟨account, offer, inLedger, -, pool, -, -, isTurn⟩ :=
      exists_turn_of_mem sound suits member
    rw [isTurn]
    exact (sound.accounts_sound account inLedger).turn ..

/-- What a pass takes from the pool is what the accounts gain. -/
theorem capital_runOffers
    (suits : ledger.Suits offers) :
    (ledger.runOffers offers).1.capital = ledger.capital := by
  have moved :=
    sum_granted_serve ledger.minimum ledger.pool
      (ledger.passes + 1) offers
  have before :
      (offers.map fun (account, _) => account.granted).sum =
        ledger.allocatedTotal := by
    rw [allocatedTotal, ← suits.accounts_eq, List.map_map]
    rfl
  rw [before] at moved
  simp only [capital, allocatedTotal, Ledger.runOffers] at moved ⊢
  omega

end RunOffers

end Ledger

end FollowOn

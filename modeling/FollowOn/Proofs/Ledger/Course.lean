import FollowOn.Proofs.Ledger.Counter

namespace FollowOn

/-!
# The course of a ledger

Whatever is done to a ledger of new accounts, its books stay in order: no
capital is made or lost, and the entries of each account agree with its cap
and with the passes so far. Along the way the pool only shrinks and accounts
only grow, and a settled account is left alone for good. One turn keeps all of
this, so every pass does, and so does every list of commands. The numbers of the
passes are those of a counter of 32 bits: a ledger is reached only as long as
the counter can hold them, and it can exactly as long as there are few enough.
-/

/-- Two steps from list to list, item by item, make up one if single steps do. -/
theorem forall₂_trans
    {α : Type}
    {related : α → α → Prop}
    (trans :
      ∀ first second third,
        related first second → related second third →
        related first third)
    {left middle right : List α}
    (first : List.Forall₂ related left middle)
    (second : List.Forall₂ related middle right) :
    List.Forall₂ related left right := by
  induction first generalizing right with
  | nil =>
      exact second
  | cons headRelated _ inductionHypothesis =>
      cases second with
      | cons nextRelated restRelated =>
          exact
            .cons (trans _ _ _ headRelated nextRelated)
              (inductionHypothesis restRelated)

namespace Account

/-- The entries of an account agree after a number of passes. -/
structure InOrder
    (passes : Nat)
    (account : Account) : Prop extends Sound account where
  lastPaid_le : account.lastPaid ≤ passes
  lastPaid_eq_zero_iff :
    account.lastPaid = 0 ↔ account.granted = 0

/-- How an account may change over time. -/
structure DevelopsInto (before after : Account) : Prop where
  terms_eq : after.terms = before.terms
  granted_le : before.granted ≤ after.granted
  settled_stays :
    before.settled = true →
      after.settled = true ∧
        after.granted = before.granted ∧
        after.lastPaid = before.lastPaid

namespace DevelopsInto

/-- An account develops into itself by no turn at all. -/
theorem refl
    (account : Account) :
    account.DevelopsInto account where
  terms_eq := rfl
  granted_le := Int.le_refl _
  settled_stays settled := ⟨settled, rfl, rfl⟩

/-- Developments of an account follow one another. -/
theorem trans
    {first second third : Account}
    (develops : first.DevelopsInto second)
    (next : second.DevelopsInto third) :
    first.DevelopsInto third where
  terms_eq := next.terms_eq.trans develops.terms_eq
  granted_le := Int.le_trans develops.granted_le next.granted_le
  settled_stays settled := by
    obtain ⟨settledNext, granted, lastPaid⟩ :=
      develops.settled_stays settled
    obtain ⟨settledLast, grantedNext, lastPaidNext⟩ :=
      next.settled_stays settledNext
    exact
      ⟨settledLast, grantedNext.trans granted,
        lastPaidNext.trans lastPaid⟩

end DevelopsInto

/-- The books of an account that was just opened are in order. -/
theorem inOrder_opened
    (companyId : String)
    (cap : Cap) :
    (opened companyId cap).InOrder 0 where
  toSound := sound_opened companyId cap
  lastPaid_le := Nat.le_refl 0
  lastPaid_eq_zero_iff := Iff.intro (fun _ => rfl) (fun _ => rfl)

/-- A settled account is passed over. -/
theorem grant_of_settled
    {account : Account}
    (settled : account.settled = true)
    (minimum pool : Int)
    (offer : Offer) :
    account.grant minimum pool offer = .closed :=
  if_pos (Or.inl settled)

section Turn

variable
    {account : Account}
    (minimum pool : Int)
    (offer : Offer)

/-- A turn keeps the entries of an account in agreement. -/
theorem InOrder.turn
    {passes : Nat}
    (inOrder : account.InOrder passes) :
    (account.turn minimum pool (passes + 1) offer).InOrder
      (passes + 1) where
  toSound := inOrder.toSound.turn minimum pool (passes + 1) offer
  lastPaid_le := by
    have earlier := inOrder.lastPaid_le
    rw [lastPaid_turn]
    cases account.grant minimum pool offer with
    | closed => exact Nat.le_succ_of_le earlier
    | belowMinimum => exact Nat.le_succ_of_le earlier
    | paid amount => exact Nat.le_refl _
  lastPaid_eq_zero_iff := by
    have unpaid := inOrder.lastPaid_eq_zero_iff
    have notNegative := inOrder.granted_nonneg
    rw [lastPaid_turn, granted_turn]
    cases given : account.grant minimum pool offer with
    | closed =>
        simpa [Grant.amount] using unpaid
    | belowMinimum =>
        simpa [Grant.amount] using unpaid
    | paid amount =>
        have positive := (paid_bounds given).1
        simp only [Grant.amount]
        omega

/-- With each turn an account develops. -/
theorem developsInto_turn
    (pass : Nat) :
    account.DevelopsInto
      (account.turn minimum pool pass offer) where
  terms_eq := by
    simp [terms]
  granted_le := by
    have added := account.amount_grant_nonneg minimum pool offer
    rw [granted_turn]
    omega
  settled_stays settled := by
    have closed := grant_of_settled settled minimum pool offer
    simp [settled_turn, lastPaid_turn, closed, settled, Grant.amount]

end Turn

end Account

namespace Ledger

/-- The books of a ledger agree with the capital that it started from. -/
structure InOrder
    (start : Int)
    (ledger : Ledger) : Prop where
  pool_nonneg : 0 ≤ ledger.pool
  pool_add_allocatedTotal :
    ledger.pool + ledger.allocatedTotal = max start 0
  accounts_inOrder :
    ∀ account ∈ ledger.accounts, account.InOrder ledger.passes

/-- How a ledger may change over time. -/
structure DevelopsInto (before after : Ledger) : Prop where
  pool_le : after.pool ≤ before.pool
  accounts_develop :
    List.Forall₂ Account.DevelopsInto before.accounts after.accounts

namespace DevelopsInto

/-- A ledger develops into itself by no pass at all. -/
theorem refl
    (ledger : Ledger) :
    ledger.DevelopsInto ledger where
  pool_le := Int.le_refl _
  accounts_develop :=
    List.forall₂_same.mpr fun account _ => .refl account

/-- Developments of a ledger follow one another. -/
theorem trans
    {first second third : Ledger}
    (develops : first.DevelopsInto second)
    (next : second.DevelopsInto third) :
    first.DevelopsInto third where
  pool_le := Int.le_trans next.pool_le develops.pool_le
  accounts_develop :=
    forall₂_trans (fun _ _ _ => .trans) develops.accounts_develop
      next.accounts_develop

/-- What ids, caps and order an account list has never changes. -/
theorem map_terms_eq
    {before after : Ledger}
    (develops : before.DevelopsInto after) :
    after.accounts.map Account.terms =
      before.accounts.map Account.terms := by
  rw [← List.forall₂_eq_eq_eq, List.forall₂_map_left_iff,
    List.forall₂_map_right_iff]
  exact
    List.Forall₂.flip
      (develops.accounts_develop.imp fun _ _ account =>
        account.terms_eq)

end DevelopsInto

section PassesTo

variable
    {start : Int}
    {before after : Ledger}

/-- A pass leaves the books of a ledger in order. -/
theorem InOrder.pass
    (inOrder : before.InOrder start)
    (sound : before.Sound)
    (pass : before.PassesTo after) :
    after.InOrder start where
  pool_nonneg := (pass.sound sound).pool_nonneg
  pool_add_allocatedTotal :=
    (pass.capital_eq sound).trans inOrder.pool_add_allocatedTotal
  accounts_inOrder := by
    intro account member
    obtain ⟨offers, suits, same⟩ := pass.exists_offers sound
    rw [pass.passes_eq]
    rw [same] at member
    obtain ⟨earlier, offer, inLedger, -, pool, -, -, isTurn⟩ :=
      exists_turn_of_mem sound suits member
    rw [isTurn]
    exact (inOrder.accounts_inOrder earlier inLedger).turn ..

/-- With each pass a ledger develops. -/
theorem PassesTo.developsInto
    (pass : before.PassesTo after)
    (sound : before.Sound) :
    before.DevelopsInto after := by
  obtain ⟨offers, suits, same⟩ := pass.exists_offers sound
  rw [same]
  refine ⟨(pool_runOffers_bounds sound offers).2, ?_⟩
  apply forall₂_accounts_of_turns sound suits
  intro account offer turned _ hasTurn
  obtain ⟨pool, -, -, isTurn⟩ := hasTurn
  rw [isTurn]
  exact account.developsInto_turn ..

end PassesTo

/-- A fresh ledger has granted nothing. -/
theorem allocatedTotal_fresh
    (caps : List (String × Cap))
    (pool : Int) :
    (fresh caps pool).allocatedTotal = 0 := by
  unfold fresh allocatedTotal
  induction caps with
  | nil =>
      rfl
  | cons entry rest inductionHypothesis =>
      simpa [opened] using inductionHypothesis

/-- The books of a fresh ledger are in order. -/
theorem inOrder_fresh
    (caps : List (String × Cap))
    (pool : Int) :
    (fresh caps pool).InOrder pool where
  pool_nonneg := Int.le_max_left 0 pool
  pool_add_allocatedTotal := by
    rw [allocatedTotal_fresh, Int.add_zero]
    exact Int.max_comm 0 pool
  accounts_inOrder := by
    intro account member
    obtain ⟨⟨companyId, cap⟩, -, same⟩ := List.mem_map.mp member
    rw [← same]
    exact Account.inOrder_opened companyId cap

/-- Commands keep the books of a ledger in order. -/
theorem InOrder.performAll
    {start : Int}
    {ledger : Ledger}
    (inOrder : ledger.InOrder start)
    (sound : ledger.Sound)
    (commands : List LedgerCommand) :
    (ledger.performAll commands).InOrder start := by
  apply sound.performAll_induction (motive := InOrder start)
  · intro before after beforeSound pass held
    exact held.pass beforeSound pass
  · intro current minimum held
    exact
      ⟨held.pool_nonneg, held.pool_add_allocatedTotal,
        held.accounts_inOrder⟩
  · intro current sharing held
    exact
      ⟨held.pool_nonneg, held.pool_add_allocatedTotal,
        held.accounts_inOrder⟩
  · exact inOrder

/-- A ledger develops along every list of commands. -/
theorem Sound.developsInto_performAll
    {ledger : Ledger}
    (sound : ledger.Sound)
    (commands : List LedgerCommand) :
    ledger.DevelopsInto (ledger.performAll commands) := by
  apply sound.performAll_induction (motive := ledger.DevelopsInto)
  · intro before after beforeSound pass develops
    exact develops.trans (pass.developsInto beforeSound)
  · intro current minimum develops
    exact ⟨develops.pool_le, develops.accounts_develop⟩
  · intro current sharing develops
    exact ⟨develops.pool_le, develops.accounts_develop⟩
  · exact .refl ledger

/--
Whatever is done to a ledger of new accounts, its books stay in order, and
whatever is done next, it only develops: the pool does not grow, no account
loses anything or changes its terms or its place, and a settled account keeps
its amount and the pass of its last payment. Commands reach a ledger exactly if
the counter can hold the numbers of all their passes.
-/
theorem books_stay_in_order
    (caps : List (String × Cap))
    (pool : Int)
    (earlier : List LedgerCommand) :
    (((fresh caps pool).performAll? earlier).isSome ↔
        ((fresh caps pool).history earlier).length < counterLimit) ∧
      ∀ reached,
        (fresh caps pool).performAll? earlier = some reached →
        reached.passes < counterLimit ∧
          reached.InOrder pool ∧
          reached.accounts.map Account.terms =
            (fresh caps pool).accounts.map Account.terms ∧
          ∀ later next,
            reached.performAll? later = some next →
            reached.DevelopsInto next := by
  refine ⟨isSome_performAll?_fresh_iff caps pool earlier, ?_⟩
  intro reached reaches
  obtain ⟨numbered, same⟩ := eq_performAll_of_reached reaches
  have freshSound := sound_fresh caps pool
  have sound : reached.Sound := by
    rw [← same]
    exact freshSound.performAll earlier
  have inOrder : reached.InOrder pool := by
    rw [← same]
    exact (inOrder_fresh caps pool).performAll freshSound earlier
  have fromStart : (fresh caps pool).DevelopsInto reached := by
    rw [← same]
    exact freshSound.developsInto_performAll earlier
  refine ⟨numbered, inOrder, fromStart.map_terms_eq, ?_⟩
  intro later next goesOn
  obtain ⟨-, sameNext⟩ := (performAll?_eq_some_iff numbered).mp goesOn
  rw [← sameNext]
  exact sound.developsInto_performAll later

/-- Caps of three companies, the second of which may receive nothing. -/
def threeCaps : List (String × Cap) :=
  [("a", ⟨100, .stageMultiple, false, Ratio.one⟩),
    ("b", ⟨0, .zeroInvested, true, Ratio.one⟩),
    ("c", ⟨300, .maxReserve, false, Ratio.one⟩)]

/--
A weighted pass settles the first account and pays the third. Another pass pays
the third account the rest, and the first keeps its amount and its pass.
-/
theorem books_stay_in_order_threeCaps :
    let earlier := [.setMinimum (some 10), .weighted [2, 1, 1]]
    let later := [.setSharing .evenShare, .pass, .redistribute 2]
    let reached := (fresh threeCaps 350).performAll earlier
    let next := reached.performAll later
    ((fresh threeCaps 350).performAll? earlier = some reached ∧
        reached.InOrder 350 ∧
        reached.accounts.map Account.granted = [100, 0, 116]) ∧
      reached.performAll? later = some next ∧
        reached.DevelopsInto next ∧
        next.accounts.map Account.granted = [100, 0, 250] ∧
        next.accounts.map Account.lastPaid = [1, 0, 2] := by
  intro earlier later reached next
  have reaches :
      (fresh threeCaps 350).performAll? earlier = some reached := by
    decide
  have goesOn : reached.performAll? later = some next := by
    decide
  obtain ⟨-, inOrder, -, develops⟩ :=
    (books_stay_in_order threeCaps 350 earlier).2 reached reaches
  exact
    ⟨⟨reaches, inOrder, by decide⟩, goesOn, develops later next goesOn,
      by decide, by decide⟩

end Ledger

end FollowOn

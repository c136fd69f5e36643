import FollowOn.Proofs.Ledger.Course

namespace FollowOn

/-!
# What a pass reports

A report is counted from the grants that a pass makes, while the accounts and
the pool are changed by them. Both tell the same: laid side by side, the
accounts before and after a pass show how many were paid, how many reached
their cap, and how much the pool gave. Whoever was not paid is left as they
were, and nobody else carries the number of the pass.
-/

/-- What two related lists show side by side, the second after a change, the second tells. -/
theorem map_zip_of_forall₂
    {α β γ δ : Type}
    {related : α → β → Prop}
    {left : List α}
    {right : List β}
    (change : β → γ)
    {shown : α × γ → δ}
    {told : β → δ}
    (lists : List.Forall₂ related left right)
    (agree :
      ∀ first second,
        related first second →
        shown (first, change second) = told second) :
    (left.zip (right.map change)).map shown = right.map told := by
  induction lists with
  | nil =>
      rfl
  | cons headRelated _ inductionHypothesis =>
      simp only [List.map_cons, List.zip_cons_cons,
        agree _ _ headRelated, inductionHypothesis]

namespace Account

/-- An account has been served: it faces some offer and gets a grant when some pool is left. -/
def IsServed
    (minimum : Int)
    (account : Account)
    (served : Account × Grant) : Prop :=
  ∃ pool offer,
    served = (account.facing offer, account.grant minimum pool offer)

/-- What a pass of the given number does to an account. -/
structure PassedBy
    (pass : Nat)
    (before after : Account) : Prop where
  terms_eq : after.terms = before.terms
  lastPaid_eq_iff :
    after.lastPaid = pass ↔ before.granted < after.granted
  unpaid_stays :
    ¬before.granted < after.granted →
      after.granted = before.granted ∧
        after.settled = before.settled ∧
        after.lastPaid = before.lastPaid

/-- An account reaches its cap. -/
def settles (before after : Account) : Bool :=
  !before.settled && after.settled

/-- A turn grants an account more exactly if it pays it. -/
theorem granted_lt_turn_iff
    {minimum pool : Int}
    {pass : Nat}
    {offer : Offer}
    {account : Account} :
    account.granted <
        (account.turn minimum pool pass offer).granted ↔
      (account.grant minimum pool offer).isPaid = true := by
  rw [granted_turn]
  cases given : account.grant minimum pool offer with
  | closed => simp [Grant.amount, Grant.isPaid]
  | belowMinimum => simp [Grant.amount, Grant.isPaid]
  | paid amount =>
      have positive := (paid_bounds given).1
      simp only [Grant.amount, Grant.isPaid, iff_true]
      omega

/-- A turn brings an account to its cap exactly if its payment fills its room. -/
theorem settles_turn
    (minimum pool : Int)
    (pass : Nat)
    (offer : Offer)
    (account : Account) :
    account.settles (account.turn minimum pool pass offer) =
      ((account.grant minimum pool offer).isPaid &&
        (account.grant minimum pool offer).amount ==
          account.room) := by
  rw [settles, settled_turn]
  cases given : account.grant minimum pool offer with
  | closed => simp [Grant.isPaid]
  | belowMinimum => simp [Grant.isPaid]
  | paid amount =>
      simp [Grant.isPaid, Grant.amount, (paid_inversion given).1,
        beq_eq_decide]

/-- A turn leaves the marks of a pass on an account whose books are in order. -/
theorem InOrder.passedBy_turn
    {passes : Nat}
    {account : Account}
    (inOrder : account.InOrder passes)
    (minimum pool : Int)
    (offer : Offer) :
    account.PassedBy (passes + 1)
      (account.turn minimum pool (passes + 1) offer) where
  terms_eq := by
    simp [terms]
  lastPaid_eq_iff := by
    -- Only a payment of this pass can have left its number on the account.
    have earlier := inOrder.lastPaid_le
    rw [granted_lt_turn_iff, lastPaid_turn]
    have notYet : account.lastPaid ≠ passes + 1 := by
      omega
    cases account.grant minimum pool offer with
    | closed => simp [Grant.isPaid, notYet]
    | belowMinimum => simp [Grant.isPaid, notYet]
    | paid amount => simp [Grant.isPaid]
  unpaid_stays := by
    rw [granted_lt_turn_iff, granted_turn, settled_turn, lastPaid_turn]
    cases account.grant minimum pool offer with
    | closed => simp [Grant.amount]
    | belowMinimum => simp [Grant.amount]
    | paid amount => simp [Grant.isPaid]

end Account

/-- Serving serves each account. -/
theorem forall₂_isServed_serve
    (minimum pool : Int)
    (offers : List (Account × Offer)) :
    List.Forall₂ (Account.IsServed minimum)
      (offers.map Prod.fst)
      (serve minimum pool offers) := by
  induction offers generalizing pool with
  | nil =>
      exact .nil
  | cons first rest inductionHypothesis =>
      exact .cons ⟨pool, first.2, rfl⟩ (inductionHypothesis _)

/-- A report of a pass says what the ledgers before and after it show. -/
structure PassReport.IsExact
    (before after : Ledger)
    (report : PassReport) : Prop where
  pass_eq : report.pass = before.passes + 1
  passes_eq : after.passes = report.pass
  poolAfter_eq : report.poolAfter = after.pool
  allocated_eq : report.allocated = before.pool - after.pool
  allocated_eq_sum :
    report.allocated =
      ((before.accounts.zip after.accounts).map
        fun (earlier, later) => later.granted - earlier.granted).sum
  funded_eq :
    report.funded =
      (before.accounts.zip after.accounts).countP
        fun (earlier, later) => decide (earlier.granted < later.granted)
  settled_eq :
    report.settled =
      (before.accounts.zip after.accounts).countP
        fun (earlier, later) => earlier.settles later
  passed :
    List.Forall₂ (Account.PassedBy report.pass)
      before.accounts after.accounts

namespace Ledger

section RunOffers

variable
    {ledger : Ledger}
    {offers : List (Account × Offer)}
    (suits : ledger.Suits offers)

include suits

/-- In the run of a pass each account is served at its place. -/
theorem forall₂_isServed :
    List.Forall₂ (Account.IsServed ledger.minimum)
      ledger.accounts
      (serve ledger.minimum ledger.pool offers) := by
  have served :=
    forall₂_isServed_serve ledger.minimum ledger.pool offers
  rw [suits.accounts_eq] at served
  exact served

/-- What the accounts before and after a pass show side by side, its grants tell. -/
theorem map_zip_runOffers
    {α : Type}
    {shown : Account × Account → α}
    {told : Account × Grant → α}
    (agree :
      ∀ account pool offer,
        shown
            (account,
              account.turn ledger.minimum pool
                (ledger.passes + 1) offer) =
          told
            (account.facing offer,
              account.grant ledger.minimum pool offer)) :
    (ledger.accounts.zip (ledger.runOffers offers).1.accounts).map
        shown =
      (serve ledger.minimum ledger.pool offers).map told := by
  refine map_zip_of_forall₂ _ (forall₂_isServed suits) ?_
  rintro account _ ⟨pool, offer, rfl⟩
  exact agree account pool offer

/-- What is counted side by side is what is counted among the grants. -/
theorem countP_zip_runOffers
    {shown : Account × Account → Bool}
    {told : Account × Grant → Bool}
    (agree :
      ∀ account pool offer,
        shown
            (account,
              account.turn ledger.minimum pool
                (ledger.passes + 1) offer) =
          told
            (account.facing offer,
              account.grant ledger.minimum pool offer)) :
    (ledger.accounts.zip (ledger.runOffers offers).1.accounts).countP
        shown =
      (serve ledger.minimum ledger.pool offers).countP told := by
  have counted := congrArg (List.countP id) (map_zip_runOffers suits agree)
  simpa only [List.countP_map, Function.id_comp] using counted

/-- A pass leaves its marks on all accounts of a ledger whose books are in order. -/
theorem InOrder.passedBy_runOffers
    {start : Int}
    (inOrder : ledger.InOrder start) :
    List.Forall₂ (Account.PassedBy (ledger.passes + 1))
      ledger.accounts
      (ledger.runOffers offers).1.accounts := by
  have withOrder :=
    (List.forall₂_and_left ledger.accounts _).mpr
      ⟨inOrder.accounts_inOrder, forall₂_isServed suits⟩
  refine List.forall₂_map_right_iff.mpr (withOrder.imp ?_)
  rintro account _ ⟨accountInOrder, pool, offer, rfl⟩
  exact accountInOrder.passedBy_turn ledger.minimum pool offer

/-- A pass with suitable offers reports exactly what it did. -/
theorem InOrder.isExact_runOffers
    {start : Int}
    (inOrder : ledger.InOrder start) :
    (ledger.runOffers offers).2.IsExact ledger
      (ledger.runOffers offers).1 where
  pass_eq := rfl
  passes_eq := rfl
  poolAfter_eq := rfl
  allocated_eq := by
    simp only [runOffers]
    omega
  allocated_eq_sum := by
    refine congrArg List.sum (map_zip_runOffers suits ?_).symm
    intro account pool offer
    simp only [Account.granted_turn]
    omega
  funded_eq := by
    refine (countP_zip_runOffers suits ?_).symm
    intro account pool offer
    simp only [Account.granted_lt_turn_iff, Bool.decide_eq_true]
  settled_eq := by
    refine (countP_zip_runOffers suits ?_).symm
    intro account pool offer
    exact account.settles_turn ledger.minimum pool _ offer
  passed := inOrder.passedBy_runOffers suits

end RunOffers

/--
Whatever was done before to a ledger of new accounts, a pass of either kind
reports exactly what it did: its number, the capital that left the pool, and how
many accounts were paid and reached their cap. Those who were paid carry its
number, and everybody else is left as they were. There is such a pass exactly if
the counter can hold its number.
-/
theorem passes_report_exactly
    (caps : List (String × Cap))
    (pool : Int)
    (commands : List LedgerCommand)
    (ledger : Ledger)
    (reaches :
      (fresh caps pool).performAll? commands = some ledger) :
    (ledger.runPass?.isSome ↔ ledger.passes + 1 < counterLimit) ∧
      (∀ next report,
        ledger.runPass? = some (next, report) →
        report.IsExact ledger next) ∧
      ∀ weights,
        ((ledger.runWeighted? weights).isSome ↔
            ledger.passes + 1 < counterLimit) ∧
          ∀ next report,
            ledger.runWeighted? weights = some (next, report) →
            report.IsExact ledger next := by
  obtain ⟨-, same⟩ := eq_performAll_of_reached reaches
  have freshSound := sound_fresh caps pool
  have sound : ledger.Sound := by
    rw [← same]
    exact freshSound.performAll commands
  have inOrder : ledger.InOrder pool := by
    rw [← same]
    exact (inOrder_fresh caps pool).performAll freshSound commands
  refine ⟨isSome_runOffers?_iff, ?_, ?_⟩
  · intro next report passed
    have isExact := inOrder.isExact_runOffers (suits_offers sound)
    obtain ⟨-, result⟩ := runPass?_eq_some_iff.mp passed
    rw [← runPass, result] at isExact
    exact isExact
  · intro weights
    refine ⟨isSome_runOffers?_iff, ?_⟩
    intro next report passed
    have isExact :=
      inOrder.isExact_runOffers (suits_weightedOffers weights ledger)
    obtain ⟨-, result⟩ := runWeighted?_eq_some_iff.mp passed
    rw [← runWeighted, result] at isExact
    exact isExact

/--
A weighted pass pays two of three accounts and settles one of them; the next
pass pays only the other, and carries the next number.
-/
theorem passes_report_exactly_threeCaps :
    let commands := [.setMinimum (some 10), .weighted [2, 1, 1]]
    let ledger := (fresh threeCaps 350).performAll commands
    let next := ledger.runPass.1
    (fresh threeCaps 350).performAll? commands = some ledger ∧
      ledger.runPass? = some (next, ⟨2, 134, 1, 0, 0⟩) ∧
      PassReport.IsExact ledger next ⟨2, 134, 1, 0, 0⟩ ∧
      (ledger.runWeighted? [0, 0, 5]).isSome := by
  intro commands ledger next
  have reaches :
      (fresh threeCaps 350).performAll? commands = some ledger := by
    decide
  have passed :
      ledger.runPass? = some (next, ⟨2, 134, 1, 0, 0⟩) := by
    decide
  obtain ⟨-, isExact, weighted⟩ :=
    passes_report_exactly threeCaps 350 commands ledger reaches
  exact
    ⟨reaches, passed, isExact next _ passed,
      (weighted [0, 0, 5]).1.mpr (by decide)⟩

end Ledger

end FollowOn

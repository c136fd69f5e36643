import FollowOn.Proofs.Checked.Account
import FollowOn.Proofs.Ledger.History

namespace FollowOn

/-!
# Checked passes

A pass in checked steps has limits for the accounts by their places, and the
places of those that it holds back. It marks accounts by place, serves them in
order and ends early when the pool is empty. From a stored ledger it does
exactly what `Ledger.runOffers?` does, since the capital of the ledger is an
amount and no pass makes any; only the counter of passes may leave its word.
-/

/-- A sound ledger of stored accounts, no more than fit in memory, whose capital is an amount. -/
structure Ledger.IsStored
    (ledger : Ledger) : Prop extends Ledger.Sound ledger where
  capital_le : ledger.capital ≤ Amount.greatest
  caps_le : ∀ account ∈ ledger.accounts, account.cap ≤ Amount.greatest
  length_lt : ledger.accounts.length < 2 ^ 63

namespace Checked

/-- Whether an account would be paid if it were offered all it can take. -/
def opens
    (ledger : Ledger)
    (account : Account) :
    Option Bool := do
  let grant ←
    grant ledger.minimum ledger.pool .unlimited account
  some grant.isPaid

/-- Whether some account could still be paid. -/
def hasOpenRoom (ledger : Ledger) : Option Bool :=
  ledger.accounts.anyM (opens ledger)

/-- An account that is held back in the current pass, or is not. -/
def withMark
    (mark : Bool)
    (account : Account) :
    Account :=
  { account with belowMinimum := mark }

/-- The accounts at the start of a pass that holds back those at some places. -/
def holdBack
    (places : List Nat)
    (accounts : List Account) :
    Option (List Account) :=
  places.foldlM (update? (withMark true))
    (accounts.map (withMark false))

/-- Serve accounts in order, until the pool is empty. -/
def serve
    (minimum : Int) :
    PassReport →
    List (Account × Offer) →
    Option (List Account × PassReport)
  | report, [] => some ([], report)
  | report, (account, offer) :: rest =>
      if report.poolAfter = 0 then
        some (account :: rest.map Prod.fst, report)
      else do
        let (served, next) ← turn minimum offer account report
        let (others, last) ← serve minimum next rest
        some (served :: others, last)

/--
A pass with a limit for each place, which holds back the accounts at some of
the places. A place without a limit is unlimited.
-/
def runLimits
    (heldBack : List Nat)
    (limits : List Offer)
    (ledger : Ledger) :
    Option (Ledger × PassReport) := do
  let marked ← holdBack heldBack ledger.accounts
  let pass ← word? 32 (ledger.passes + 1)
  let (accounts, report) ←
    serve ledger.minimum ⟨pass, 0, 0, 0, ledger.pool⟩
      (marked.mapIdx fun place account =>
        (account, limits[place]?.getD .unlimited))
  some
    ({ ledger with
        accounts := accounts
        pool := report.poolAfter
        passes := pass },
      report)

end Checked

namespace Ledger.IsStored

variable
    {ledger : Ledger}
    (stored : ledger.IsStored)

include stored

/-- Each account of a stored ledger is stored. -/
theorem account
    {account : Account}
    (member : account ∈ ledger.accounts) :
    account.IsStored where
  toSound := stored.accounts_sound account member
  cap_le := stored.caps_le account member

/-- No account of a stored ledger was granted less than nothing. -/
theorem granted_nonneg_of_mem :
    ∀ granted ∈ ledger.accounts.map Account.granted, 0 ≤ granted := by
  intro granted member
  obtain ⟨account, inLedger, same⟩ := List.mem_map.mp member
  rw [← same]
  exact (stored.accounts_sound account inLedger).granted_nonneg

/-- The total of a stored ledger is not below zero. -/
theorem allocatedTotal_nonneg :
    0 ≤ ledger.allocatedTotal :=
  List.sum_nonneg stored.granted_nonneg_of_mem

/--
The total of a stored ledger stays within the greatest amount, as it is part of
the capital.
-/
theorem allocatedTotal_le :
    ledger.allocatedTotal ≤ Amount.greatest := by
  have poolNotNegative := stored.pool_nonneg
  have capital := stored.capital_le
  simp only [Ledger.capital] at capital
  omega

/-- The pool of a stored ledger stays within the greatest amount. -/
theorem pool_le :
    ledger.pool ≤ Amount.greatest := by
  have allocated := stored.allocatedTotal_nonneg
  have capital := stored.capital_le
  simp only [Ledger.capital] at capital
  omega

/-- A pass leads from a stored ledger to a stored ledger. -/
theorem pass
    {after : Ledger}
    (pass : ledger.PassesTo after) :
    after.IsStored where
  toSound := pass.sound stored.toSound
  capital_le := by
    rw [pass.capital_eq stored.toSound]
    exact stored.capital_le
  caps_le := by
    have kept := pass.map_terms_eq stored.toSound
    intro account member
    have inTerms : account.terms ∈ ledger.accounts.map Account.terms := by
      rw [← kept]
      exact List.mem_map_of_mem member
    obtain ⟨earlier, inLedger, same⟩ := List.mem_map.mp inTerms
    have sameCap : earlier.cap = account.cap :=
      congrArg Account.Terms.cap same
    rw [← sameCap]
    exact stored.caps_le earlier inLedger
  length_lt := by
    have kept := pass.map_terms_eq stored.toSound
    have sameLength := congrArg List.length kept
    simp only [List.length_map] at sameLength
    rw [sameLength]
    exact stored.length_lt

/-- Another minimum leaves a ledger stored. -/
theorem withMinimum
    (minimum : Option Int) :
    (ledger.withMinimum minimum).IsStored where
  toSound := stored.toSound.withMinimum minimum
  capital_le := stored.capital_le
  caps_le := stored.caps_le
  length_lt := stored.length_lt

/-- Another sharing rule leaves a ledger stored. -/
theorem withSharing
    (sharing : SharingRule) :
    (ledger.withSharing sharing).IsStored where
  toSound := stored.toSound.withSharing sharing
  capital_le := stored.capital_le
  caps_le := stored.caps_le
  length_lt := stored.length_lt

/-- Any commands lead from a stored ledger to a stored ledger. -/
theorem performAll
    (commands : List LedgerCommand) :
    (ledger.performAll commands).IsStored :=
  Ledger.performAll_induction
    (fun _ _ pass before => before.pass pass)
    (fun _ minimum current => current.withMinimum minimum)
    (fun _ sharing current => current.withSharing sharing)
    stored commands

end Ledger.IsStored

namespace Checked

section Opens

variable
    {ledger : Ledger}
    (stored : ledger.IsStored)

include stored

/-- Whether an account is open is decided within its words. -/
theorem opens_eq
    {account : Account}
    (member : account ∈ ledger.accounts) :
    opens ledger account = some (ledger.opens account) := by
  rw [opens, grant_eq (stored.account member)]
  rfl

/-- Whether any account has open room is decided within its words. -/
theorem hasOpenRoom_eq :
    hasOpenRoom ledger = some ledger.hasOpenRoom :=
  anyM_eq_some_any fun _ member => opens_eq stored member

end Opens

/-- Once the pool is empty, all accounts that follow are closed. -/
theorem serve_of_empty
    (minimum : Int)
    (offers : List (Account × Offer)) :
    FollowOn.serve minimum 0 offers =
      offers.map fun (account, offer) =>
        (account.facing offer, .closed) := by
  induction offers with
  | nil =>
      rfl
  | cons first rest inductionHypothesis =>
      obtain ⟨account, offer⟩ := first
      have closed : account.grant minimum 0 offer = .closed :=
        if_pos (Or.inr (Int.min_le_right _ _))
      simp [FollowOn.serve, closed, Grant.amount,
        inductionHypothesis]

/-- The report after further accounts were served. -/
def afterServing
    (served : List (Account × Grant))
    (report : PassReport) :
    PassReport :=
  served.foldl
    (fun current (account, grant) => afterGrant account grant current)
    report

/-- The report after all turns counts the payments and adds them up. -/
theorem afterServing_eq
    (served : List (Account × Grant))
    (report : PassReport) :
    afterServing served report =
      { pass := report.pass
        allocated := report.allocated + totalGranted served
        funded :=
          report.funded +
            served.countP fun (_, grant) => grant.isPaid
        settled :=
          report.settled +
            served.countP fun (account, grant) =>
              grant.isPaid && grant.amount == account.room
        poolAfter := report.poolAfter - totalGranted served } := by
  induction served generalizing report with
  | nil =>
      simp [afterServing, totalGranted]
  | cons first rest inductionHypothesis =>
      obtain ⟨account, grant⟩ := first
      have followed :=
        inductionHypothesis (afterGrant account grant report)
      simp only [afterServing, List.foldl_cons] at followed ⊢
      rw [followed]
      simp only [afterGrant, totalGranted, List.map_cons,
        List.sum_cons, List.countP_cons, PassReport.mk.injEq,
        true_and]
      omega

/-- Turns with an empty pool leave the report alone. -/
theorem afterServing_of_empty
    (minimum : Int)
    (offers : List (Account × Offer))
    (report : PassReport) :
    afterServing (FollowOn.serve minimum 0 offers) report =
      report := by
  rw [serve_of_empty]
  induction offers with
  | nil =>
      rfl
  | cons first rest inductionHypothesis =>
      simpa [afterServing] using inductionHypothesis

/-- Accounts are served without leaving the words. -/
theorem serve_eq
    {offers : List (Account × Offer)}
    (stored : ∀ offered ∈ offers, offered.1.IsStored)
    {report : PassReport}
    (hasRoom : HasRoomFor offers.length report)
    (minimum : Int) :
    serve minimum report (offers.map faced) =
      some
        ((FollowOn.serve minimum report.poolAfter offers).map
            fun (account, grant) => account.receive report.pass grant,
          afterServing
            (FollowOn.serve minimum report.poolAfter offers)
            report) := by
  induction offers generalizing report with
  | nil =>
      rfl
  | cons first rest inductionHypothesis =>
      obtain ⟨account, offer⟩ := first
      rw [List.forall_mem_cons] at stored
      by_cases empty : report.poolAfter = 0
      · -- The loop ends here, and nobody else would be paid.
        rw [empty, afterServing_of_empty, serve_of_empty]
        simp [serve, empty, faced, Account.receive,
          Function.comp_def]
      · have next :=
          inductionHypothesis stored.2
            (hasRoom.afterGrant minimum offer account)
        simp only [List.map_cons, faced, serve, if_neg empty,
          turn_eq stored.1 hasRoom, Option.bind_eq_bind,
          Option.bind_some]
        rw [next]
        rfl

/--
Limits by place and the places of those held back stand for offers: an account
that is held back has the limit zero.
-/
structure StandFor
    (heldBack : List Nat)
    (limits : List Offer)
    (offers : List (Account × Offer)) : Prop where
  limits_eq : limits = offers.map fun (_, offer) => offer.withoutMark
  heldBack_iff :
    ∀ place,
      place ∈ heldBack ↔
        ∃ account, offers[place]? = some (account, .heldBack)

/-- Accounts that are marked by place and have limits by place face their offers. -/
theorem StandFor.holdBack_eq
    {heldBack : List Nat}
    {limits : List Offer}
    {offers : List (Account × Offer)}
    (standFor : StandFor heldBack limits offers) :
    ∃ marked,
      holdBack heldBack (offers.map Prod.fst) = some marked ∧
        (marked.mapIdx fun place account =>
          (account, limits[place]?.getD .unlimited)) =
          offers.map faced := by
  have inside :
      ∀ place ∈ heldBack,
        place <
          ((offers.map Prod.fst).map (withMark false)).length := by
    intro place member
    obtain ⟨account, found⟩ :=
      (standFor.heldBack_iff place).mp member
    simpa using (List.getElem?_eq_some_iff.mp found).1
  have repeated :
      ∀ account,
        withMark true (withMark true account) =
          withMark true account :=
    fun _ => rfl
  refine ⟨_, foldlM_update? repeated inside, ?_⟩
  apply List.ext_getElem?
  intro place
  have isHeldBack := standFor.heldBack_iff place
  simp only [standFor.limits_eq, List.getElem?_mapIdx,
    List.getElem?_map]
  cases found : offers[place]? with
  | none =>
      rfl
  | some offered =>
      obtain ⟨account, offer⟩ := offered
      rw [found] at isHeldBack
      cases offer <;>
        simp_all [faced, Account.facing, withMark, Offer.holdsBack]

/-- A pass with limits is the pass with the offers that they stand for. -/
theorem runLimits_eq
    {ledger : Ledger}
    (stored : ledger.IsStored)
    {heldBack : List Nat}
    {limits : List Offer}
    {offers : List (Account × Offer)}
    (sameAccounts : offers.map Prod.fst = ledger.accounts)
    (standFor : StandFor heldBack limits offers) :
    runLimits heldBack limits ledger =
      ledger.runOffers? offers := by
  have sameLength : offers.length = ledger.accounts.length := by
    rw [← sameAccounts, List.length_map]
  have short := stored.length_lt
  have offeredStored : ∀ offered ∈ offers, offered.1.IsStored := by
    intro offered member
    apply stored.account
    rw [← sameAccounts]
    exact List.mem_map_of_mem member
  have hasRoom :
      HasRoomFor offers.length
        ⟨ledger.passes + 1, 0, 0, 0, ledger.pool⟩ := by
    refine ⟨Int.le_refl 0, stored.pool_nonneg, ?_, ?_, ?_⟩
    · simpa using stored.pool_le
    · simp only
      omega
    · simp only
      omega
  obtain ⟨marked, isMarked, face⟩ := standFor.holdBack_eq
  rw [sameAccounts] at isMarked
  rw [runLimits, isMarked, Ledger.runOffers?, Ledger.counterLimit]
  by_cases notLast : ledger.passes + 1 < 2 ^ 32
  · simp only [if_pos notLast, word?_of_lt notLast, face,
      serve_eq offeredStored hasRoom, Option.bind_eq_bind,
      Option.bind_some, afterServing_eq]
    simp [Ledger.runOffers]
  · rw [if_neg notLast, word?_eq_none notLast]
    rfl

end Checked

end FollowOn

import FollowOn.Ledger.Account

namespace FollowOn

/-!
# Ledgers

A ledger holds the accounts of all companies in ranking order and the pool of
capital that is not yet granted. A pass goes through the accounts once. It
first makes each account an offer, by a rule of its own; then `serve` grants
each account what its offer, its room and the remaining pool allow, in order.
The pass report counts what was done.

The counter of passes is a word of 32 bits. `Ledger.runOffers` carries a pass
out whatever its number is; `Ledger.runOffers?` is the pass that a ledger with
such a counter can run, and the functions whose names end in a question mark go
by it throughout.
-/

/-- How much one pass may grant an account. -/
inductive SharingRule where
  /-- All it can take. -/
  | greedy
  /-- At most an even share of the pool at the start of the pass. -/
  | evenShare
deriving Repr, DecidableEq

namespace SharingRule

def label : SharingRule → String
  | .greedy => "greedy"
  | .evenShare => "even_share"

def all : List SharingRule :=
  [.greedy, .evenShare]

end SharingRule

/-- The accounts of all companies and the capital that is left. -/
structure Ledger where
  /-- Accounts in ranking order. -/
  accounts : List Account
  /-- Capital that is not yet granted. -/
  pool : Int
  /-- Least first check; zero allows any. -/
  minimum : Int
  sharing : SharingRule
  /-- Number of passes so far, which the counter can hold below `counterLimit`. -/
  passes : Nat
deriving Repr, DecidableEq

/-- What one pass did. -/
structure PassReport where
  /-- Number of the pass, from one. -/
  pass : Nat
  /-- Capital that was moved. -/
  allocated : Int
  /-- Accounts that were paid. -/
  funded : Nat
  /-- Accounts that reached their cap. -/
  settled : Nat
  /-- Capital that is left. -/
  poolAfter : Int
deriving Repr, DecidableEq

/--
Serve accounts in order, each with what the accounts before it have left.

Every account is returned as it faces its offer, with its grant.
-/
def serve
    (minimum : Int) :
    (pool : Int) →
    List (Account × Offer) →
    List (Account × Grant)
  | _, [] => []
  | pool, (account, offer) :: rest =>
      let grant := account.grant minimum pool offer
      (account.facing offer, grant) ::
        serve minimum (pool - grant.amount) rest

/-- The capital that grants move. -/
def totalGranted (served : List (Account × Grant)) : Int :=
  (served.map fun (_, grant) => grant.amount).sum

namespace Ledger

/-- A ledger before its first pass: no minimum, and greedy. -/
def opened
    (accounts : List Account)
    (pool : Int) :
    Ledger where
  accounts := accounts
  pool := max 0 pool
  minimum := 0
  sharing := .greedy
  passes := 0

/-- Set the least first check; nothing, or an amount not above zero, allows any. -/
def withMinimum
    (minimum : Option Int)
    (ledger : Ledger) :
    Ledger :=
  { ledger with minimum := max 0 (minimum.getD 0) }

def withSharing
    (sharing : SharingRule)
    (ledger : Ledger) :
    Ledger :=
  { ledger with sharing := sharing }

/-- Capital granted so far. -/
def allocatedTotal (ledger : Ledger) : Int :=
  (ledger.accounts.map Account.granted).sum

/-- Whether an account of the ledger would be paid if it were offered all it can take. -/
def opens
    (ledger : Ledger)
    (account : Account) :
    Bool :=
  account.isOpen ledger.minimum ledger.pool

/-- Whether some account could still be paid. -/
def hasOpenRoom (ledger : Ledger) : Bool :=
  ledger.accounts.any ledger.opens

/-- Numbers of passes lie below this, since their counter is a word of 32 bits. -/
def counterLimit : Nat := 2 ^ 32

/-- The ledger and the report after a pass with the given offers, whatever its number. -/
def runOffers
    (offers : List (Account × Offer))
    (ledger : Ledger) :
    Ledger × PassReport :=
  let pass := ledger.passes + 1
  let served := serve ledger.minimum ledger.pool offers
  let poolAfter := ledger.pool - totalGranted served
  let settles (account : Account) (grant : Grant) : Bool :=
    grant.isPaid && grant.amount == account.room
  ({ ledger with
      accounts := served.map fun (account, grant) =>
        account.receive pass grant
      pool := poolAfter
      passes := pass },
    { pass := pass
      allocated := totalGranted served
      funded := served.countP fun (_, grant) => grant.isPaid
      settled := served.countP fun (account, grant) =>
        settles account grant
      poolAfter := poolAfter })

/--
A pass with the given offers, if the counter can hold its number. Otherwise the
counter overflows, which ends the run: there is no ledger after such a pass.
-/
def runOffers?
    (offers : List (Account × Offer))
    (ledger : Ledger) :
    Option (Ledger × PassReport) :=
  if ledger.passes + 1 < counterLimit then
    some (ledger.runOffers offers)
  else
    none

end Ledger

/-- A pass grants no more than the pool, and no less than nothing. -/
theorem totalGranted_bounds
    {minimum pool : Int}
    (poolNotNegative : 0 ≤ pool)
    (offers : List (Account × Offer)) :
    0 ≤ totalGranted (serve minimum pool offers) ∧
      totalGranted (serve minimum pool offers) ≤ pool := by
  induction offers generalizing pool with
  | nil =>
      simpa [serve, totalGranted] using poolNotNegative
  | cons first rest inductionHypothesis =>
      obtain ⟨account, offer⟩ := first
      have least := account.amount_grant_nonneg minimum pool offer
      have greatest :
          (account.grant minimum pool offer).amount ≤ pool :=
        Account.amount_grant_le poolNotNegative offer account
      have poolAfter :
          0 ≤ pool - (account.grant minimum pool offer).amount := by
        omega
      have restBounds := inductionHypothesis poolAfter
      simp only [serve, totalGranted, List.map_cons,
        List.sum_cons] at restBounds ⊢
      omega

end FollowOn

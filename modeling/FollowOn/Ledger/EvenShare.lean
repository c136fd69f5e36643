import FollowOn.Ledger.Basic

namespace FollowOn

/-!
# Even shares

A pass by even shares divides the pool at its start by the number of accounts
that take part, rounded up. Open accounts that were paid before always take
part. Those still waiting for their first check are admitted in ranking order,
as many as leave a share that meets the minimum; the others are held back.
-/

/-- A pool divided evenly, rounded up; nothing for nobody. -/
def evenShare
    (pool : Int)
    (count : Nat) :
    Int :=
  if count = 0 then 0 else (pool + (count - 1)) / count

/--
How many waiting accounts are admitted beside `funded` ones: the greatest
number, up to the given one, that leaves a share of at least the minimum.
-/
def admissions
    (pool minimum : Int)
    (funded : Nat) :
    (waiting : Nat) →
    Nat
  | 0 => 0
  | waiting + 1 =>
      if evenShare pool (funded + waiting + 1) < minimum then
        admissions pool minimum funded waiting
      else
        waiting + 1

/--
Offers of one share to all accounts, except the waiting ones beyond the number
of places.
-/
def offerShare
    (waits : Account → Bool)
    (share : Int) :
    (places : Nat) →
    List Account →
    List (Account × Offer)
  | _, [] => []
  | places, account :: rest =>
      if waits account then
        match places with
        | 0 =>
            (account, .heldBack) ::
              offerShare waits share 0 rest
        | left + 1 =>
            (account, .upTo share) ::
              offerShare waits share left rest
      else
        (account, .upTo share) ::
          offerShare waits share places rest

namespace Ledger

/-- Whether an account is open and waits for its first check. -/
def waits
    (ledger : Ledger)
    (account : Account) :
    Bool :=
  ledger.opens account && account.granted == 0

/-- Number of open accounts that were paid before. -/
def fundedCount (ledger : Ledger) : Nat :=
  ledger.accounts.countP fun account =>
    ledger.opens account && decide (0 < account.granted)

/-- Number of open accounts that wait for their first check. -/
def waitingCount (ledger : Ledger) : Nat :=
  ledger.accounts.countP ledger.waits

/-- Number of waiting accounts that the next pass admits. -/
def admitted (ledger : Ledger) : Nat :=
  admissions ledger.pool ledger.minimum
    ledger.fundedCount ledger.waitingCount

/-- The share of the next pass. -/
def share (ledger : Ledger) : Int :=
  evenShare ledger.pool (ledger.fundedCount + ledger.admitted)

/-- The offers of the next pass. -/
def offers (ledger : Ledger) : List (Account × Offer) :=
  match ledger.sharing with
  | .greedy => ledger.accounts.map (·, .unlimited)
  | .evenShare =>
      offerShare ledger.waits ledger.share
        ledger.admitted ledger.accounts

/-- One pass by the ledger's rule of sharing. -/
def runPass (ledger : Ledger) : Ledger × PassReport :=
  ledger.runOffers ledger.offers

/-- A pass by the rule of sharing, if the counter can hold its number. -/
def runPass? (ledger : Ledger) : Option (Ledger × PassReport) :=
  ledger.runOffers? ledger.offers

end Ledger

/-- No more are admitted than wait. -/
theorem admissions_le
    (pool minimum : Int)
    (funded waiting : Nat) :
    admissions pool minimum funded waiting ≤ waiting := by
  induction waiting with
  | zero =>
      exact Nat.le_refl 0
  | succ waiting inductionHypothesis =>
      simp only [admissions]
      split <;> omega

/-- An offer is made to each account at its place. -/
theorem map_fst_offerShare
    (waits : Account → Bool)
    (share : Int)
    (places : Nat)
    (accounts : List Account) :
    (offerShare waits share places accounts).map Prod.fst =
      accounts := by
  induction accounts generalizing places with
  | nil =>
      rfl
  | cons account rest inductionHypothesis =>
      simp only [offerShare]
      split
      · split <;> simp [inductionHypothesis]
      · simp [inductionHypothesis]

/-- A pass makes its offers to the accounts of the ledger, in their order. -/
theorem Ledger.map_fst_offers
    (ledger : Ledger) :
    ledger.offers.map Prod.fst = ledger.accounts := by
  unfold Ledger.offers
  split
  · simp [Function.comp_def]
  · exact map_fst_offerShare ..

end FollowOn

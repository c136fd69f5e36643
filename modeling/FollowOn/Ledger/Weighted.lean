import FollowOn.BitLength
import FollowOn.Ledger.Basic

namespace FollowOn

/-!
# Weighted shares

A weighted pass offers each open account a share of the pool at its start, in
proportion to the account's weight and rounded down. While some share would
be a first check below the minimum, the last such account in ranking order
drops out, is held back, and leaves its weight to the others.

Weights are natural numbers of up to 128 bits. They are first shifted so that
their sum fits in 127 bits; a share whose product does not fit in 128 bits
drops the lowest bits of its weight.
-/

/--
How far weights are shifted down: as far as their binary length and that of
their number exceed 127 together.
-/
def weightShift (weights : List Nat) : Nat :=
  (weights.map bitLength).foldr max 0 +
    bitLength weights.length - 127

/-- Weights shifted by a common amount so that their sum fits in 127 bits. -/
def normalizeWeights (weights : List Nat) : List Nat :=
  weights.map (· >>> weightShift weights)

/--
`pool · weight / total`, rounded down.

When the product does not fit in 128 bits, the weight is cut to its highest 64
bits and the total is shifted along with it.
-/
def proportionalShare
    (pool weight total : Nat) :
    Nat :=
  if pool * weight < 2 ^ 128 then
    pool * weight / total
  else
    let excess := bitLength weight - 64
    pool * (weight >>> excess) / max (total >>> excess) 1

/-- The part of an account in a weighted pass. -/
inductive Standing where
  /-- It was not open at the start. -/
  | outside
  /-- It takes part. -/
  | admitted
  /-- It dropped out because of the minimum. -/
  | retired
deriving Repr, DecidableEq

/-- An account with its weight in a weighted pass. -/
structure Stake where
  account : Account
  weight : Nat
  standing : Standing
deriving Repr, DecidableEq

namespace Stake

/-- Whether an account takes part. -/
def isAdmitted (stake : Stake) : Bool :=
  decide (stake.standing = .admitted)

/-- The offer to one account, when the admitted weights sum up to `total`. -/
def offer
    (pool : Int)
    (total : Nat)
    (stake : Stake) :
    Offer :=
  match stake.standing with
  | .outside => .upTo 0
  | .retired => .heldBack
  | .admitted =>
      if total = 0 then
        .upTo 0
      else
        .upTo (proportionalShare pool.toNat stake.weight total)

/-- Whether an admitted account would miss the minimum with its share. -/
def isBlocked
    (minimum pool : Int)
    (total : Nat)
    (stake : Stake) :
    Bool :=
  stake.isAdmitted &&
    decide
      (stake.account.grant minimum pool (stake.offer pool total) =
        .belowMinimum)

end Stake

/-- The sum of the admitted weights. -/
def admittedWeight (stakes : List Stake) : Nat :=
  ((stakes.filter Stake.isAdmitted).map Stake.weight).sum

/-- The stakes after the last blocked account has dropped out, if one is blocked. -/
def retireLast?
    (blocked : Stake → Bool) :
    List Stake →
    Option (List Stake)
  | [] => none
  | stake :: rest =>
      match retireLast? blocked rest with
      | some changed => some (stake :: changed)
      | none =>
          if blocked stake then
            some ({ stake with standing := .retired } :: rest)
          else
            none

/--
The stakes after at most `drops` accounts have dropped out, one at a time,
until no admitted account is blocked.
-/
def dropBlocked
    (minimum pool : Int) :
    (drops : Nat) →
    List Stake →
    List Stake
  | 0, stakes => stakes
  | drops + 1, stakes =>
      let blocked :=
        Stake.isBlocked minimum pool (admittedWeight stakes)
      match retireLast? blocked stakes with
      | some fewer => dropBlocked minimum pool drops fewer
      | none => stakes

namespace Ledger

/-- The stakes of the accounts before any drops out; missing weights are zero. -/
def stakes
    (weights : List Nat)
    (ledger : Ledger) :
    List Stake :=
  ledger.accounts.zipIdx.map fun (account, place) =>
    { account := account
      weight := (normalizeWeights weights)[place]?.getD 0
      standing :=
        if ledger.opens account then .admitted else .outside }

/-- The stakes of the accounts when no admitted one is blocked. -/
def settledStakes
    (weights : List Nat)
    (ledger : Ledger) :
    List Stake :=
  dropBlocked ledger.minimum ledger.pool
    ledger.accounts.length (ledger.stakes weights)

/-- The offers of a weighted pass. -/
def weightedOffers
    (weights : List Nat)
    (ledger : Ledger) :
    List (Account × Offer) :=
  let stakes := ledger.settledStakes weights
  stakes.map fun stake =>
    (stake.account,
      stake.offer ledger.pool (admittedWeight stakes))

/-- One pass by weighted shares. -/
def runWeighted
    (weights : List Nat)
    (ledger : Ledger) :
    Ledger × PassReport :=
  ledger.runOffers (ledger.weightedOffers weights)

/-- A pass by weighted shares, if the counter can hold its number. -/
def runWeighted?
    (weights : List Nat)
    (ledger : Ledger) :
    Option (Ledger × PassReport) :=
  ledger.runOffers? (ledger.weightedOffers weights)

end Ledger

/-- Retiring a stake leaves the accounts alone. -/
theorem map_account_retireLast?
    {blocked : Stake → Bool}
    {stakes fewer : List Stake}
    (retired : retireLast? blocked stakes = some fewer) :
    fewer.map Stake.account = stakes.map Stake.account := by
  induction stakes generalizing fewer with
  | nil =>
      cases retired
  | cons stake rest inductionHypothesis =>
      simp only [retireLast?] at retired
      split at retired
      · rename_i changed found
        injection retired with same
        subst same
        simp [inductionHypothesis found]
      · split at retired
        · injection retired with same
          subst same
          simp
        · cases retired

/-- Rounds leave the accounts of the stakes alone. -/
theorem map_account_dropBlocked
    (minimum pool : Int)
    (drops : Nat)
    (stakes : List Stake) :
    (dropBlocked minimum pool drops stakes).map Stake.account =
      stakes.map Stake.account := by
  induction drops generalizing stakes with
  | zero =>
      rfl
  | succ drops inductionHypothesis =>
      simp only [dropBlocked]
      split
      · rename_i fewer retired
        rw [inductionHypothesis, map_account_retireLast? retired]
      · rfl

/-- A weighted pass makes its offers to the accounts of the ledger, in their order. -/
theorem Ledger.map_fst_weightedOffers
    (weights : List Nat)
    (ledger : Ledger) :
    (ledger.weightedOffers weights).map Prod.fst =
      ledger.accounts := by
  simp only [Ledger.weightedOffers, List.map_map]
  have sameAccounts :=
    map_account_dropBlocked ledger.minimum ledger.pool
      ledger.accounts.length (ledger.stakes weights)
  have atStart :
      (ledger.stakes weights).map Stake.account =
        ledger.accounts := by
    simp only [Ledger.stakes, List.map_map]
    exact List.zipIdx_map_fst 0 ledger.accounts
  simpa [Function.comp_def, Ledger.settledStakes] using
    sameAccounts.trans atStart

end FollowOn

import FollowOn.Proofs.Checked.Pass
import FollowOn.Proofs.Checked.Rounds

namespace FollowOn

/-!
# Checked weighted passes

A weighted pass shifts its weights, gives each open account its own one, goes
through the rounds, and runs with the limits of the last one. Its rounds start
with nobody held back and with weights whose sum is a word, which is all that
they need.
-/

namespace Checked

/-- The stakes of the accounts before any drops out; missing weights are zero. -/
def stakes
    (weights : List Nat)
    (ledger : Ledger) :
    Option (List Stake) :=
  ledger.accounts.zipIdx.mapM fun (account, place) => do
    let isOpen ← opens ledger account
    some
      { account := account
        weight := weights[place]?.getD 0
        standing := if isOpen then .admitted else .outside }

/-- One pass by weighted shares. -/
def runWeighted
    (weights : List Nat)
    (ledger : Ledger) :
    Option (Ledger × PassReport) := do
  let normalized ← normalize weights
  let stakes ← stakes normalized ledger
  let (limits, heldBack) ←
    rounds ledger.minimum ledger.pool
      (ledger.accounts.length + 1) [] stakes
  runLimits heldBack (limits.map .upTo) ledger

section RunWeighted

variable
    {ledger : Ledger}
    (stored : ledger.IsStored)
    {weights : List Nat}
    (words : ∀ weight ∈ weights, weight < 2 ^ 128)
    (few : weights.length < 2 ^ 64)

/-- Weights looked up by place, zero past the end, add up to no more than all weights. -/
theorem sum_getD_le
    (weights : List Nat)
    (count : Nat) :
    ((List.range count).map fun place =>
        weights[place]?.getD 0).sum ≤
      weights.sum := by
  induction weights generalizing count with
  | nil =>
      simp
  | cons weight rest inductionHypothesis =>
      cases count with
      | zero =>
          exact Nat.zero_le _
      | succ count =>
          have inRest := inductionHypothesis count
          rw [List.range_succ_eq_map, List.map_cons, List.map_map,
            List.sum_cons, List.sum_cons]
          exact Nat.add_le_add_left inRest weight

include stored in
/-- The stakes of a weighted pass are set out within their words. -/
theorem stakes_eq :
    stakes (normalizeWeights weights) ledger =
      some (ledger.stakes weights) := by
  apply mapM_eq_some_map
  rintro ⟨account, place⟩ member
  have inLedger : account ∈ ledger.accounts :=
    List.fst_mem_of_mem_zipIdx member
  simp only [opens_eq stored inLedger, Option.bind_eq_bind,
    Option.bind_some]

include stored few in
/-- The stakes of a weighted pass on a stored ledger are stored. -/
theorem areStored_stakes :
    AreStored (ledger.stakes weights) where
  accounts_stored := by
    intro stake member
    obtain ⟨⟨account, place⟩, inAccounts, same⟩ :=
      List.mem_map.mp member
    rw [← same]
    exact stored.account (List.fst_mem_of_mem_zipIdx inAccounts)
  sum_lt := by
    have places :
        (ledger.stakes weights).map Stake.weight =
          (List.range ledger.accounts.length).map fun place =>
            (normalizeWeights weights)[place]?.getD 0 := by
      rw [List.range_eq_range', ← List.zipIdx_map_snd, List.map_map,
        Ledger.stakes, List.map_map]
      rfl
    rw [places]
    exact
      Nat.lt_of_le_of_lt (sum_getD_le _ _)
        (Nat.lt_of_le_of_lt (sum_normalizeWeights_le few) (by decide))

/-- Before the first round no stake has retired. -/
theorem not_hasRetired_stakes
    (weights : List Nat)
    (ledger : Ledger)
    (place : Nat) :
    ¬HasRetired (ledger.stakes weights) place := by
  rintro ⟨stake, atPlace, retired⟩
  obtain ⟨placed, -, same⟩ :=
    List.mem_map.mp (List.mem_of_getElem? atPlace)
  rw [← same] at retired
  simp only at retired
  split at retired <;> cases retired

/-- At most all accounts are admitted at first, which bounds the number of rounds. -/
theorem countP_isAdmitted_stakes_le
    (weights : List Nat)
    (ledger : Ledger) :
    (ledger.stakes weights).countP Stake.isAdmitted ≤
      ledger.accounts.length := by
  refine Nat.le_trans List.countP_le_length ?_
  simp [Ledger.stakes]

/-- The limits of the last round and the places that dropped out stand for the offers. -/
theorem standFor_weightedOffers
    {places : List Nat}
    (retired :
      ∀ place,
        place ∈ places ↔
          HasRetired (ledger.settledStakes weights) place) :
    StandFor places
      (((ledger.settledStakes weights).map
          (Stake.limit ledger.pool
            (admittedWeight (ledger.settledStakes weights)))).map
        .upTo)
      (ledger.weightedOffers weights) where
  limits_eq := by
    simp only [Ledger.weightedOffers, List.map_map,
      Function.comp_def, Stake.withoutMark_offer]
  heldBack_iff := by
    intro place
    rw [retired place]
    simp only [Ledger.weightedOffers, List.getElem?_map, HasRetired]
    cases (ledger.settledStakes weights)[place]? with
    | none => simp
    | some stake => simp [Stake.offer_eq_heldBack_iff]

include stored words few

/-- A pass by weighted shares leaves no word but that of the counter. -/
theorem runWeighted_eq :
    runWeighted weights ledger = ledger.runWeighted? weights := by
  have start :
      ∀ place,
        place ∈ [] ↔ HasRetired (ledger.stakes weights) place :=
    fun place =>
      iff_of_false (List.not_mem_nil)
        (not_hasRetired_stakes weights ledger place)
  obtain ⟨places, ended, retired⟩ :=
    rounds_eq stored.pool_nonneg stored.pool_le
      (areStored_stakes stored few) ledger.minimum
      (countP_isAdmitted_stakes_le weights ledger) start
  simp only [runWeighted, normalize_eq words few,
    stakes_eq stored, ended, Option.bind_eq_bind, Option.bind_some]
  exact
    runLimits_eq stored
      (Ledger.map_fst_weightedOffers weights ledger)
      (standFor_weightedOffers retired)

end RunWeighted

end Checked

end FollowOn

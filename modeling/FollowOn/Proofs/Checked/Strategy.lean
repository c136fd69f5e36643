import FollowOn.Proofs.Checked.EvenShare
import FollowOn.Proofs.Checked.Weighted
import FollowOn.Proofs.FinalLedger
import FollowOn.Proofs.Ledger.Counter

namespace FollowOn

/-!
# Checked strategies

A strategy in checked steps looks companies up by their places in the ranking,
computes their caps and, for a proportional split, their weights, and runs its
passes. Its opening ledger is stored, so every ledger on the way is; there are
at most nine passes, and what the remainder passes move altogether stays within
the pool that they start from.
-/

/-- The numbers of a request fit where they are stored. -/
structure Request.IsStored (request : Request) : Prop where
  available_inRange : Amount.InRange request.available
  companies_stored : ∀ company ∈ request.companies, company.IsStored
  policies_stored : ∀ policy ∈ request.policies, policy.IsStored
  constraints_stored : request.constraints.IsStored
  length_companies_lt : request.companies.length < 2 ^ 63

namespace Checked

/-- Why no further pass makes sense, if so. -/
def atRest (ledger : Ledger) : Option (Option StopReason) :=
  if ledger.pool = 0 then
    some (some .poolExhausted)
  else do
    let hasOpenRoom ← hasOpenRoom ledger
    some (if hasOpenRoom then none else some .noRoom)

/-- Run at most `left` remainder passes, and report them after earlier ones. -/
def redistribute :
    (left : Nat) →
    (passes : Nat) →
    (allocated : Int) →
    Ledger →
    Option (Ledger × RemainderReport)
  | 0, passes, allocated, ledger => do
      let atRest ← atRest ledger
      some (ledger, ⟨passes, allocated, atRest.getD .passLimit⟩)
  | left + 1, passes, allocated, ledger => do
      let atRest ← atRest ledger
      match atRest with
      | some stop => some (ledger, ⟨passes, allocated, stop⟩)
      | none => do
          let (next, report) ← runPass ledger
          let passes ← word? 32 (passes + 1)
          let allocated ← amount? (allocated + report.allocated)
          if report.allocated = 0 then
            some (next, ⟨passes, allocated, .noProgress⟩)
          else
            redistribute left passes allocated next

/-- The companies with their caps, by their places in the ranking. -/
def rankedCaps
    (request : Request) :
    Option (List (Company × Cap)) :=
  (rankedPlaces request.companies).mapM fun place => do
    let company ← request.companies[place]?
    let cap ←
      cap company (policyFor? request.policies company.stage)
        request.constraints request.available
    some (company, cap)

/-- The ledger of ranked companies before its first pass. -/
def ledgerOf
    (entries : List (Company × Cap))
    (request : Request) :
    Ledger :=
  (Ledger.opened
      (entries.map fun (company, cap) =>
        Account.opened company.id cap)
      request.available).withMinimum
    request.constraints.minReserve

/-- The weight of a cap in a proportional split. -/
def weightOf (cap : Cap) : Option Nat := do
  let amount ← unsigned? (max 0 cap.amount)
  let priority ← unsigned? (max 0 cap.priorityWeight.micros)
  word? 128 (amount * priority)

/-- The ledger of ranked companies after the passes of a strategy. -/
def finalLedger
    (strategy : Strategy)
    (entries : List (Company × Cap))
    (request : Request) :
    Option Ledger :=
  match strategy with
  | .constrained settings => do
      let (first, _) ←
        runPass
          ((ledgerOf entries request).withSharing settings.sharing)
      let (last, _) ←
        redistribute settings.remainderPasses 0 0 first
      some last
  | .proRata _ => do
      let weights ← entries.mapM fun (_, cap) => weightOf cap
      let (first, _) ←
        runWeighted weights (ledgerOf entries request)
      if 0 < first.pool then
        let hasOpenRoom ← hasOpenRoom first
        if hasOpenRoom then
          let (second, _) ← runPass first
          some second
        else
          some first
      else
        some first

section Redistribute

/-- Whether a stored ledger has come to rest is decided within its words. -/
theorem atRest_eq
    {ledger : Ledger}
    (stored : ledger.IsStored) :
    atRest ledger = some ledger.atRest? := by
  unfold atRest Ledger.atRest?
  split
  · rfl
  · rw [hasOpenRoom_eq stored]
    rfl

/-- What a pass moves comes from the pool. -/
theorem allocated_runPass_bounds
    {ledger : Ledger}
    (stored : ledger.IsStored) :
    0 ≤ ledger.runPass.2.allocated ∧
      ledger.runPass.2.allocated + ledger.runPass.1.pool =
        ledger.pool := by
  constructor
  · exact (totalGranted_bounds stored.pool_nonneg ledger.offers).1
  · simp only [Ledger.runPass, Ledger.runOffers]
    omega

/-- The report of remainder passes that follow some others. -/
def following
    (passes : Nat)
    (allocated : Int)
    (report : RemainderReport) :
    RemainderReport where
  passes := passes + report.passes
  allocated := allocated + report.allocated
  stop := report.stop

/-- Remainder passes run and are reported in words, as far as the counter goes. -/
theorem redistribute_eq
    {left passes : Nat}
    {allocated : Int}
    {ledger : Ledger}
    (stored : ledger.IsStored)
    (few : passes + left < 2 ^ 32)
    (notNegative : 0 ≤ allocated)
    (atMost : allocated + ledger.pool ≤ Amount.greatest) :
    redistribute left passes allocated ledger =
      (Ledger.redistribute? left ledger).map fun (last, report) =>
        (last, following passes allocated report) := by
  induction left generalizing passes allocated ledger with
  | zero =>
      rw [redistribute, atRest_eq stored, Option.bind_eq_bind,
        Option.bind_some]
      cases resting : ledger.atRest? <;>
        simp [Ledger.redistribute?, resting, following]
  | succ left inductionHypothesis =>
      rw [redistribute, atRest_eq stored, Option.bind_eq_bind,
        Option.bind_some]
      cases resting : ledger.atRest? with
      | some stop =>
          simp [Ledger.redistribute?, resting, following]
      | none =>
          simp only [Ledger.redistribute?, resting, runPass_eq stored]
          cases passed : ledger.runPass? with
          | none =>
              rfl
          | some result =>
              obtain ⟨next, report⟩ := result
              obtain ⟨-, isResult⟩ :=
                Ledger.runPass?_eq_some_iff.mp passed
              have nextStored := stored.pass .shared
              obtain ⟨moved, rest⟩ := allocated_runPass_bounds stored
              rw [isResult] at nextStored moved rest
              simp only at nextStored moved rest
              have poolNotNegative := nextStored.pool_nonneg
              have passesFit :
                  word? 32 (passes + 1) = some (passes + 1) :=
                word?_of_lt (by omega)
              have allocatedFits :
                  amount? (allocated + report.allocated) =
                    some (allocated + report.allocated) :=
                amount?_of_bounds (by omega) (by omega)
              have followed :
                  redistribute left (passes + 1)
                      (allocated + report.allocated) next =
                    _ :=
                inductionHypothesis nextStored (by omega) (by omega)
                  (by omega)
              simp only [passesFit, allocatedFits, followed,
                Option.bind_eq_bind, Option.bind_some]
              by_cases idle : report.allocated = 0
              · simp [idle, following]
              · cases Ledger.redistribute? left next with
                | none => simp [idle]
                | some last =>
                    simp only [if_neg idle, Option.bind_some,
                      Option.map_some, following,
                      RemainderReport.after, Option.some.injEq,
                      Prod.mk.injEq, RemainderReport.mk.injEq,
                      true_and, and_true]
                    omega

end Redistribute

/-- The companies with their caps, in ranking order. -/
def entriesOf (request : Request) : List (Company × Cap) :=
  (ranked request.companies).map fun company =>
    (company, request.capOf company)

/-- The ledger of the ranked companies beside their caps is that of the request. -/
theorem ledgerOf_entriesOf
    (request : Request) :
    ledgerOf (entriesOf request) request = request.ledger := by
  simp [ledgerOf, entriesOf, Request.ledger, Request.accounts_eq_map,
    Function.comp_def]

section Opening

variable
    {request : Request}
    (stored : request.IsStored)

include stored

/-- The policy that is looked up is one of the stored ones. -/
theorem policyFor?_isStored
    {stage : String}
    {policy : StagePolicy}
    (found : policyFor? request.policies stage = some policy) :
    policy.IsStored :=
  stored.policies_stored policy (mem_and_stage_of_policyFor? found).1

/-- The cap of a stored company stays within the greatest amount. -/
theorem capOf_amount_le
    {company : Company}
    (member : company ∈ request.companies) :
    (request.capOf company).amount ≤ Amount.greatest :=
  evaluateCap_amount_le (stored.companies_stored company member)
    stored.constraints_stored

/-- The cap of a stored company is computed within its words. -/
theorem cap_of_eq
    {company : Company}
    (member : company ∈ request.companies) :
    cap company (policyFor? request.policies company.stage)
        request.constraints request.available =
      some (request.capOf company) :=
  cap_eq (stored.companies_stored company member)
    (fun _ found => policyFor?_isStored stored found)
    stored.constraints_stored stored.available_inRange

/-- Every company is found at its place, and its cap is computed. -/
theorem rankedCaps_eq :
    rankedCaps request = some (entriesOf request) := by
  rw [rankedCaps, rankedPlaces, List.mapM_map, entriesOf, ranked,
    List.map_map]
  apply mapM_eq_some_map
  rintro ⟨company, place⟩ member
  have isPlaced : (company, place) ∈ request.companies.zipIdx :=
    (List.mergeSort_perm _ _).mem_iff.mp member
  have found := List.mem_zipIdx_iff_getElem?.mp isPlaced
  have hasCap := cap_of_eq stored (List.mem_of_getElem? found)
  simp only [Function.comp_apply, found, hasCap, Option.bind_eq_bind,
    Option.bind_some]

/-- A weight is the product of two words of 63 bits. -/
theorem weightOf_eq
    {company : Company}
    (member : company ∈ request.companies) :
    weightOf (request.capOf company) =
        some (Request.weightOf (request.capOf company)) ∧
      Request.weightOf (request.capOf company) < 2 ^ 128 := by
  have amountAtMost := capOf_amount_le stored member
  have priority :
      Amount.InRange (request.capOf company).priorityWeight.micros := by
    simp only [Request.capOf, evaluateCap]
    cases found : policyFor? request.policies company.stage with
    | none => exact Ratio.one_inRange
    | some policy =>
        exact
          (policyFor?_isStored stored found).priorityWeight_inRange
  have priorityAtMost := priority.2
  simp only [Amount.greatest] at amountAtMost priorityAtMost
  have small : Request.weightOf (request.capOf company) < 2 ^ 128 :=
    calc Request.weightOf (request.capOf company)
        ≤ 2 ^ 63 * 2 ^ 63 :=
          Nat.mul_le_mul (by omega) (by omega)
      _ < 2 ^ 128 := by
          decide
  refine ⟨?_, small⟩
  have sameAmount :
      unsigned? (max 0 (request.capOf company).amount) =
        some (request.capOf company).amount.toNat := by
    rw [unsigned?_of_nonneg (Int.le_max_left 0 _)]
    congr 1
    omega
  have samePriority :
      unsigned?
          (max 0 (request.capOf company).priorityWeight.micros) =
        some
          (request.capOf company).priorityWeight.micros.toNat := by
    rw [unsigned?_of_nonneg (Int.le_max_left 0 _)]
    congr 1
    omega
  rw [weightOf, sameAmount, samePriority]
  exact word?_of_lt small

/-- The ledger that a strategy starts its passes from is stored. -/
theorem isStored_openingLedger
    (strategy : Strategy) :
    (strategy.openingLedger request).IsStored where
  toSound := Strategy.sound_openingLedger strategy request
  capital_le := by
    have capital :
        (strategy.openingLedger request).capital =
          max 0 request.available + request.ledger.allocatedTotal := by
      cases strategy <;> rfl
    have notNegative : 0 ≤ Amount.greatest := by decide
    rw [capital, Request.allocatedTotal_ledger, Int.add_zero]
    exact Int.max_le.mpr ⟨notNegative, stored.available_inRange.2⟩
  caps_le := by
    rw [Strategy.accounts_openingLedger]
    intro account member
    obtain ⟨company, inRanked, same⟩ :=
      Request.exists_company_of_mem_accounts member
    have inCompanies :=
      (ranked_perm request.companies).mem_iff.mp inRanked
    rw [← same, Request.cap_opened_capOf]
    exact capOf_amount_le stored inCompanies
  length_lt := by
    rw [Strategy.accounts_openingLedger, Request.accounts_eq_map,
      List.length_map, (ranked_perm request.companies).length_eq]
    exact stored.length_companies_lt

/-- A strategy ends with a stored ledger. -/
theorem isStored_finalLedger
    (strategy : Strategy) :
    (strategy.finalLedger request).IsStored :=
  Strategy.finalLedger_induction
    (fun _ _ pass before => before.pass pass)
    (isStored_openingLedger stored strategy)

/-- The weights of the ranked companies are computed within their words. -/
theorem weights_eq :
    (entriesOf request).mapM (fun (_, cap) => weightOf cap) =
      some request.weights := by
  rw [entriesOf, List.mapM_map, Request.weights_eq_map]
  apply mapM_eq_some_map
  intro company member
  have inCompanies :=
    (ranked_perm request.companies).mem_iff.mp member
  exact (weightOf_eq stored inCompanies).1

/-- Each weight is the product of two words, and so fits in 128 bits. -/
theorem weights_lt :
    ∀ weight ∈ request.weights, weight < 2 ^ 128 := by
  intro weight member
  rw [Request.weights_eq_map] at member
  obtain ⟨company, inRanked, same⟩ := List.mem_map.mp member
  have inCompanies :=
    (ranked_perm request.companies).mem_iff.mp inRanked
  rw [← same]
  exact (weightOf_eq stored inCompanies).2

/-- The weights are counted by a word, as the companies are. -/
theorem length_weights_lt :
    request.weights.length < 2 ^ 64 := by
  have few := stored.length_companies_lt
  rw [Request.weights_eq_map, List.length_map,
    (ranked_perm request.companies).length_eq]
  omega

/-- The passes of the constrained strategy are computed within their words. -/
theorem finalLedger_constrained_eq
    (settings : Settings) :
    finalLedger (.constrained settings) (entriesOf request) request =
      some ((Strategy.constrained settings).finalLedger request) := by
  have openingStored :
      (request.ledger.withSharing settings.sharing).IsStored :=
    isStored_openingLedger stored (.constrained settings)
  have firstStored := openingStored.pass .shared
  have capitalAtMost := firstStored.pool_le
  have fewPasses : settings.remainderPasses ≤ 8 :=
    settings.remainderPasses_le
  have firstPass :
      (request.ledger.withSharing settings.sharing).runPass? =
        some (request.ledger.withSharing settings.sharing).runPass :=
    Ledger.runPass?_of_lt (show 0 + 1 < Ledger.counterLimit by decide)
  have remainderPasses :
      Ledger.redistribute? settings.remainderPasses
          (request.ledger.withSharing settings.sharing).runPass.1 =
        some _ :=
    Ledger.redistribute?_of_lt
      (Nat.lt_of_le_of_lt (Nat.add_le_add_left fewPasses 1)
        (by decide))
  have remainder :
      redistribute settings.remainderPasses 0 0
          (request.ledger.withSharing settings.sharing).runPass.1 =
        _ :=
    redistribute_eq firstStored (by omega) (Int.le_refl 0) (by omega)
  simp only [finalLedger, ledgerOf_entriesOf, runPass_eq openingStored,
    firstPass, remainder, remainderPasses, Option.bind_eq_bind,
    Option.bind_some, Option.map_some, Strategy.finalLedger]

/-- The weighted pass and those after it are computed within their words. -/
theorem finalLedger_proRata_eq
    (settings : Settings) :
    finalLedger (.proRata settings) (entriesOf request) request =
      some ((Strategy.proRata settings).finalLedger request) := by
  have openingStored : request.ledger.IsStored :=
    isStored_openingLedger stored (.proRata settings)
  have firstStored := openingStored.pass (.weighted request.weights)
  have firstPass :
      request.ledger.runWeighted? request.weights =
        some (request.ledger.runWeighted request.weights) :=
    Ledger.runWeighted?_of_lt
      (show 0 + 1 < Ledger.counterLimit by decide) request.weights
  have secondPass :
      (request.ledger.runWeighted request.weights).1.runPass? =
        some (request.ledger.runWeighted request.weights).1.runPass :=
    Ledger.runPass?_of_lt (show 1 + 1 < Ledger.counterLimit by decide)
  simp only [finalLedger, ledgerOf_entriesOf, weights_eq stored,
    runWeighted_eq openingStored (weights_lt stored)
      (length_weights_lt stored),
    runPass_eq firstStored, hasOpenRoom_eq firstStored, firstPass,
    secondPass, Option.bind_eq_bind, Option.bind_some,
    Strategy.finalLedger]
  by_cases hasPool :
      0 < (request.ledger.runWeighted request.weights).1.pool
  · simp only [hasPool, true_and, if_true]
    split <;> rfl
  · simp only [hasPool, false_and, if_false]

/-- The passes of a strategy run without leaving the words. -/
theorem finalLedger_eq
    (strategy : Strategy) :
    finalLedger strategy (entriesOf request) request =
      some (strategy.finalLedger request) := by
  cases strategy with
  | constrained settings =>
      exact finalLedger_constrained_eq stored settings
  | proRata settings =>
      exact finalLedger_proRata_eq stored settings

end Opening

end Checked

end FollowOn

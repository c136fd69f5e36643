import FollowOn.Proofs.Ledger.Candidates
import FollowOn.Proofs.Ledger.Evenness
import FollowOn.Proofs.Ledger.WeightedShares
import FollowOn.Proofs.Lookup

namespace FollowOn

/-!
# Plans in proportion

Without a least reserve, the weighted pass of a plan in proportion pays every
company its base: its share of all the capital, as far as its cap allows. What
rounding and caps leave over then goes to the companies in ranking order, each
up to its cap, in a second pass that runs only if it can pay anybody. So the
plan is described without accounts and passes: by the bases, and by what a
waterfall over the rest of the caps adds to them.
-/

namespace Request

/-- The weight of a company, shifted as far as all weights of its request. -/
def shiftedWeight
    (request : Request)
    (company : Company) :
    Nat :=
  weightOf (request.capOf company) >>> weightShift request.weights

/-- The weight of all companies that take part in the weighted pass. -/
def totalWeight (request : Request) : Nat :=
  (request.companies.map request.shiftedWeight).sum

/-- The share of a company in all the capital; nobody has one if no weight counts. -/
def shareOf
    (request : Request)
    (company : Company) :
    Int :=
  if request.totalWeight = 0 then
    0
  else
    proportionalShare request.available.toNat
      (request.shiftedWeight company) request.totalWeight

/-- What the weighted pass pays to a company. -/
def baseOf
    (request : Request)
    (company : Company) :
    Int :=
  min (request.capOf company).amount (request.shareOf company)

/-- What its base leaves of the cap of a company. -/
def roomOf
    (request : Request)
    (company : Company) :
    Int :=
  (request.capOf company).amount - request.baseOf company

/-- What the bases of all companies leave of the capital. -/
def afterBases (request : Request) : Int :=
  request.available - (request.companies.map request.baseOf).sum

/-- What a waterfall adds to the bases of companies in order, out of `pool`. -/
def topUps
    (request : Request) :
    (pool : Int) →
    List Company →
    List (Company × Int)
  | _, [] => []
  | pool, company :: rest =>
      let topUp := min (request.roomOf company) pool
      (company, topUp) :: request.topUps (pool - topUp) rest

variable
    {request : Request}

/-- No proportional share is below zero. -/
theorem shareOf_nonneg
    (request : Request)
    (company : Company) :
    0 ≤ request.shareOf company := by
  unfold shareOf
  split
  · exact Int.le_refl 0
  · exact Int.natCast_nonneg _

/-- A base lies between nothing and the cap. -/
theorem baseOf_bounds
    (request : Request)
    (company : Company) :
    0 ≤ request.baseOf company ∧
      request.baseOf company ≤ (request.capOf company).amount :=
  ⟨Int.le_min.mpr
      ⟨evaluateCap_amount_nonneg .., request.shareOf_nonneg company⟩,
    Int.min_le_left _ _⟩

/-- A base leaves no less than nothing of its cap. -/
theorem roomOf_nonneg
    (request : Request)
    (company : Company) :
    0 ≤ request.roomOf company :=
  Int.sub_nonneg_of_le (request.baseOf_bounds company).2

section TopUps

variable
    (request)

/-- Top-ups are listed company by company. -/
theorem forall₂_topUps
    (pool : Int)
    (companies : List Company) :
    List.Forall₂
      (fun company (entry : Company × Int) => entry.1 = company)
      companies
      (request.topUps pool companies) := by
  induction companies generalizing pool with
  | nil =>
      exact .nil
  | cons company rest inductionHypothesis =>
      exact .cons rfl (inductionHypothesis _)

/-- Nothing is added where nobody could take anything. -/
theorem topUps_eq_map_zero
    {pool : Int}
    {companies : List Company}
    (nobody :
      ∀ company ∈ companies, min (request.roomOf company) pool = 0) :
    request.topUps pool companies =
      companies.map fun company => (company, 0) := by
  induction companies with
  | nil =>
      rfl
  | cons company rest inductionHypothesis =>
      obtain ⟨first, others⟩ := List.forall_mem_cons.mp nobody
      have followed := inductionHypothesis others
      simp only [topUps, first, Int.sub_zero, followed,
        List.map_cons]

section NotNegative

variable
    {pool : Int}
    (poolNotNegative : 0 ≤ pool)
    (companies : List Company)

include poolNotNegative

/-- No top-up takes anything away. -/
theorem topUp_nonneg
    {entry : Company × Int}
    (member : entry ∈ request.topUps pool companies) :
    0 ≤ entry.2 := by
  induction companies generalizing pool with
  | nil =>
      cases member
  | cons company rest inductionHypothesis =>
      have notNegative := request.roomOf_nonneg company
      rcases List.mem_cons.mp member with isFirst | inRest
      · rw [isFirst]
        exact Int.le_min.mpr ⟨notNegative, poolNotNegative⟩
      · exact inductionHypothesis (by omega) inRest

/-- Whoever stands ahead of somebody with a top-up has no room left. -/
theorem pairwise_topUps :
    (request.topUps pool companies).Pairwise fun first second =>
      0 < second.2 → first.2 = request.roomOf first.1 := by
  induction companies generalizing pool with
  | nil =>
      exact .nil
  | cons company rest inductionHypothesis =>
      have notNegative := request.roomOf_nonneg company
      refine
        .cons ?_ (inductionHypothesis (by omega))
      intro later inRest added
      by_contra hasRoom
      -- The first one took all that was left, so the others get nothing.
      have nothingLeft :
          pool - min (request.roomOf company) pool = 0 := by
        simp only at hasRoom
        omega
      rw [nothingLeft, topUps_eq_map_zero] at inRest
      · obtain ⟨other, -, same⟩ := List.mem_map.mp inRest
        rw [← same] at added
        exact Int.lt_irrefl 0 added
      · intro other _
        exact Int.min_eq_right (request.roomOf_nonneg other)

end NotNegative

end TopUps

/-- A new account has its whole cap as room. -/
theorem room_opened_capOf
    (request : Request)
    (company : Company) :
    (Account.opened company.id (request.capOf company)).room =
      (request.capOf company).amount := by
  rw [(Account.sound_opened ..).room_eq, cap_opened_capOf,
    Account.granted_opened, Int.sub_zero]

/-- The stake of a company in the first pass. -/
def stakeOf
    (request : Request)
    (company : Company) :
    Stake where
  account := Account.opened company.id (request.capOf company)
  weight := request.shiftedWeight company
  standing :=
    if request.ledger.opens
        (Account.opened company.id (request.capOf company)) then
      .admitted
    else
      .outside

/-- The stakes of the weighted pass are those of the ranked companies. -/
theorem stakes_ledger
    (request : Request) :
    request.ledger.stakes request.weights =
      (ranked request.companies).map request.stakeOf := by
  have shifted :
      normalizeWeights request.weights =
        (ranked request.companies).map request.shiftedWeight :=
    calc normalizeWeights request.weights
        = request.weights.map (· >>> weightShift request.weights) :=
          rfl
      _ = ((ranked request.companies).map fun company =>
              weightOf (request.capOf company)).map
            (· >>> weightShift request.weights) := by
          rw [← weights_eq_map]
      _ = (ranked request.companies).map request.shiftedWeight :=
          List.map_map
  have placed :
      (ranked request.companies).map request.stakeOf =
        (ranked request.companies).zipIdx.map
          (request.stakeOf ∘ Prod.fst) := by
    rw [← List.map_map, List.zipIdx_map_fst]
  change request.accounts.zipIdx.map _ = _
  rw [accounts_eq_map, List.zipIdx_map, List.map_map, shifted, placed]
  apply List.map_congr_left
  rintro ⟨company, place⟩ member
  have atPlace := List.mem_zipIdx_iff_getElem?.mp member
  simp only at atPlace
  simp [atPlace, stakeOf]

/-- The ledger after the first pass in proportion. -/
def basesPaid (request : Request) : Ledger :=
  (request.ledger.runWeighted request.weights).1

/-- Paying the bases is a pass. -/
theorem passesTo_basesPaid
    (request : Request) :
    request.ledger.PassesTo request.basesPaid :=
  .weighted request.weights

/-- The ledger of a request is sound. -/
theorem sound_ledger
    (request : Request) :
    request.ledger.Sound :=
  Strategy.sound_openingLedger (.proRata Settings.standard) request

/-- The ledger is sound after the bases are paid. -/
theorem sound_basesPaid
    (request : Request) :
    request.basesPaid.Sound :=
  request.passesTo_basesPaid.sound request.sound_ledger

/-- An account belongs to a company and was paid its base, and `topUp` more. -/
structure IsToppedUp
    (request : Request)
    (company : Company)
    (topUp : Int)
    (account : Account) : Prop where
  sound : account.Sound
  terms_eq :
    account.terms =
      (Account.opened company.id (request.capOf company)).terms
  granted_eq : account.granted = request.baseOf company + topUp

namespace IsToppedUp

variable
    {company : Company}
    {topUp : Int}
    {account : Account}
    (holds : request.IsToppedUp company topUp account)

include holds

/-- A topped-up account keeps the cap of its company. -/
theorem cap_eq :
    account.cap = (request.capOf company).amount := by
  have terms := holds.terms_eq
  injection terms with _ sameCap
  exact sameCap.trans (request.cap_opened_capOf company)

/-- A top-up is taken from the room that the base has left. -/
theorem room_eq :
    account.room = request.roomOf company - topUp := by
  rw [holds.sound.room_eq, holds.cap_eq, holds.granted_eq, roomOf]
  omega

end IsToppedUp

section FirstPass

variable
    (notNegative : 0 ≤ request.available)
    (noMinimum : request.minimum = 0)

include notNegative

/-- All that is available lies in the pool at first. -/
theorem pool_ledger :
    request.ledger.pool = request.available :=
  Int.max_eq_right notNegative

include noMinimum

/--
A company takes part in the weighted pass if it has a cap and there is something
to share.
-/
theorem isAdmitted_stakeOf_iff
    (company : Company) :
    (request.stakeOf company).isAdmitted = true ↔
      0 < (request.capOf company).amount ∧
        0 < request.available := by
  have sound :=
    Account.sound_opened company.id (request.capOf company)
  have opens :
      request.ledger.opens
          (Account.opened company.id (request.capOf company)) =
        true ↔ _ :=
    sound.isOpen_iff
  have isAdmitted :
      (request.stakeOf company).isAdmitted =
        request.ledger.opens
          (Account.opened company.id (request.capOf company)) := by
    simp only [Stake.isAdmitted, stakeOf]
    split <;> simp [*]
  rw [isAdmitted, opens, request.cap_opened_capOf, request.room_opened_capOf,
    Account.granted_opened, pool_ledger notNegative, minimum_ledger, noMinimum]
  omega

/-- Without a minimum nobody retires, and all the weight is left. -/
theorem weightLeft_ledger
    (available : 0 < request.available) :
    request.ledger.weightLeft request.weights =
      request.totalWeight := by
  rw [Ledger.weightLeft, Ledger.settledStakes_of_minimum_eq_zero noMinimum,
    admittedWeight, stakes_ledger, sum_map_filter_eq, List.map_map,
    totalWeight]
  · exact ((ranked_perm request.companies).map _).sum_eq
  · intro stake member takesNoPart
    obtain ⟨company, -, same⟩ := List.mem_map.mp member
    subst same
    have capNotNegative : 0 ≤ (request.capOf company).amount :=
      evaluateCap_amount_nonneg ..
    have noCap : (request.capOf company).amount = 0 := by
      rw [← Bool.not_eq_true,
        isAdmitted_stakeOf_iff notNegative noMinimum] at takesNoPart
      omega
    simp [stakeOf, shiftedWeight, weightOf, noCap]

/-- The first pass is to pay a company its base. -/
theorem payment_stakeOf
    (company : Company) :
    (request.stakeOf company).payment request.ledger.pool
        (request.ledger.weightLeft request.weights) =
      request.baseOf company := by
  have room := request.room_opened_capOf company
  have admitted :=
    isAdmitted_stakeOf_iff notNegative noMinimum company
  have capNotNegative : 0 ≤ (request.capOf company).amount :=
    evaluateCap_amount_nonneg ..
  have shareNotNegative := request.shareOf_nonneg company
  by_cases takesPart : (request.stakeOf company).isAdmitted = true
  · have available := (admitted.mp takesPart).2
    have limit :
        (request.stakeOf company).limit request.available
            request.totalWeight =
          request.shareOf company := by
      simp only [Stake.limit, takesPart, Bool.true_eq_false, false_or]
      rfl
    have stakeRoom :
        (request.stakeOf company).account.room =
          (request.capOf company).amount := room
    rw [Stake.payment, pool_ledger notNegative,
      weightLeft_ledger notNegative noMinimum available, limit,
      stakeRoom]
    rfl
  · rw [Stake.payment_of_not_isAdmitted (eq_false_of_ne_true takesPart)]
    rw [admitted] at takesPart
    by_cases noCap : (request.capOf company).amount = 0
    · rw [baseOf, noCap]
      exact (Int.min_eq_left shareNotNegative).symm
    · have noPool : request.available = 0 := by
        omega
      have noShare : request.shareOf company = 0 := by
        simp [shareOf, noPool, proportionalShare]
      rw [baseOf, noShare]
      exact (Int.min_eq_right capNotNegative).symm

variable
    (isAmount : request.available ≤ Amount.greatest)

include isAmount

/-- The first pass pays every company its base. -/
theorem map_granted_basesPaid :
    request.basesPaid.accounts.map Account.granted =
      (ranked request.companies).map request.baseOf := by
  have poolAtMost : request.ledger.pool ≤ Amount.greatest := by
    rwa [pool_ledger notNegative]
  have paid :=
    Ledger.map_granted_runOffers_of_perm request.sound_ledger poolAtMost
      (List.Perm.refl (request.ledger.settledStakes request.weights))
  change request.basesPaid.accounts.map Account.granted = _ at paid
  rw [paid, Ledger.settledStakes_of_minimum_eq_zero noMinimum,
    stakes_ledger, List.map_map]
  apply List.map_congr_left
  intro company _
  rw [Function.comp_apply, payment_stakeOf notNegative noMinimum]
  exact Int.zero_add _

/-- The pool after the weighted pass is what the bases leave. -/
theorem pool_basesPaid :
    request.basesPaid.pool = request.afterBases := by
  have capital :=
    request.passesTo_basesPaid.capital_eq request.sound_ledger
  have bases :
      request.basesPaid.allocatedTotal =
        (request.companies.map request.baseOf).sum := by
    rw [Ledger.allocatedTotal,
      map_granted_basesPaid notNegative noMinimum isAmount]
    exact ((ranked_perm request.companies).map _).sum_eq
  rw [Ledger.capital, Ledger.capital, allocatedTotal_ledger, bases,
    pool_ledger notNegative] at capital
  unfold afterBases
  omega

/-- The bases never exceed the capital. -/
theorem afterBases_nonneg :
    0 ≤ request.afterBases := by
  rw [← pool_basesPaid notNegative noMinimum isAmount]
  exact request.sound_basesPaid.pool_nonneg

/-- After the weighted pass each account holds its base and no top-up. -/
theorem forall₂_basesPaid :
    List.Forall₂
      (fun company account => request.IsToppedUp company 0 account)
      (ranked request.companies)
      request.basesPaid.accounts := by
  have terms :=
    forall₂_terms_of_map_terms_eq
      (request.passesTo_basesPaid.map_terms_eq request.sound_ledger)
  have granted :
      List.Forall₂
        (fun company account =>
          account.granted = request.baseOf company)
        (ranked request.companies)
        request.basesPaid.accounts := by
    have paid := map_granted_basesPaid notNegative noMinimum isAmount
    rw [← List.forall₂_eq_eq_eq, List.forall₂_map_left_iff,
      List.forall₂_map_right_iff] at paid
    exact paid.flip
  refine List.Forall₂.mp ?_ terms granted
  rintro company account ⟨member, sameTerms⟩ base
  exact
    ⟨request.sound_basesPaid.accounts_sound account member, sameTerms,
      by rw [base, Int.add_zero]⟩

/-- A second pass would pay somebody exactly if the bases leave capital and a cap open. -/
theorem basesPaid_goesOn_iff :
    (0 < request.basesPaid.pool ∧
        request.basesPaid.hasOpenRoom = true) ↔
      0 < request.afterBases ∧
        ∃ company ∈ request.companies,
          request.baseOf company < (request.capOf company).amount := by
  have holds := forall₂_basesPaid notNegative noMinimum isAmount
  rw [pool_basesPaid notNegative noMinimum isAmount]
  refine and_congr_right fun left => ?_
  rw [Ledger.hasOpenRoom, List.any_eq_true]
  constructor
  · rintro ⟨account, member, opens⟩
    obtain ⟨company, isRanked, ofCompany⟩ :=
      exists_mem_left_of_forall₂ holds member
    have belowCap := (ofCompany.sound.isOpen_iff.mp opens).1
    rw [ofCompany.granted_eq, ofCompany.cap_eq, Int.add_zero] at belowCap
    exact
      ⟨company, (ranked_perm request.companies).mem_iff.mp isRanked,
        belowCap⟩
  · rintro ⟨company, member, belowCap⟩
    obtain ⟨account, inLedger, ofCompany⟩ :=
      exists_mem_left_of_forall₂ holds.flip
        ((ranked_perm request.companies).mem_iff.mpr member)
    have pool := pool_basesPaid notNegative noMinimum isAmount
    have room := account.room_nonneg
    refine ⟨account, inLedger, ofCompany.sound.isOpen_iff.mpr ?_⟩
    refine ⟨?_, by omega, fun _ => ?_⟩
    · rw [ofCompany.granted_eq, ofCompany.cap_eq, Int.add_zero]
      exact belowCap
    · change request.minimum ≤ _
      omega

end FirstPass

section SecondPass

variable
    {pool : Int}
    (poolNotNegative : 0 ≤ pool)

include poolNotNegative

/-- In a greedy pass without a minimum, an account takes its part of the waterfall. -/
theorem IsToppedUp.turn
    {company : Company}
    {account : Account}
    (holds : request.IsToppedUp company 0 account)
    (pass : Nat) :
    (account.grant 0 pool .unlimited).amount =
        min (request.roomOf company) pool ∧
      request.IsToppedUp company (min (request.roomOf company) pool)
        (account.turn 0 pool pass .unlimited) := by
  have paid :
      (account.grant 0 pool .unlimited).amount =
        min account.room pool :=
    holds.sound.amount_grant_of_no_minimum poolNotNegative .unlimited
  rw [holds.room_eq, Int.sub_zero] at paid
  refine ⟨paid, holds.sound.turn .., ?_, ?_⟩
  · rw [← holds.terms_eq]
    simp [Account.terms]
  · rw [Account.granted_turn, paid, holds.granted_eq, Int.add_zero]

/-- A greedy pass without a minimum is a waterfall over what is left of the caps. -/
theorem forall₂_serve_topUps
    {companies : List Company}
    {accounts : List Account}
    (holds :
      List.Forall₂
        (fun company account => request.IsToppedUp company 0 account)
        companies accounts)
    (pass : Nat) :
    List.Forall₂
      (fun entry account =>
        request.IsToppedUp entry.1 entry.2 account)
      (request.topUps pool companies)
      ((serve 0 pool (accounts.map (·, .unlimited))).map
        fun (account, grant) => account.receive pass grant) := by
  induction holds generalizing pool with
  | nil =>
      exact .nil
  | @cons company account rest others first _ inductionHypothesis =>
      obtain ⟨paid, turned⟩ := first.turn poolNotNegative pass
      have left : 0 ≤ pool - min (request.roomOf company) pool := by
        omega
      have followed := inductionHypothesis left
      simp only [List.map_cons, serve, topUps, paid]
      exact .cons turned followed

end SecondPass

end Request

namespace Strategy

/-- A plan in proportion goes on after its first pass only if that can pay anybody. -/
theorem finalLedger_of_proRata
    (settings : Settings)
    (request : Request) :
    (Strategy.proRata settings).finalLedger request =
      if 0 < request.basesPaid.pool ∧ request.basesPaid.hasOpenRoom then
        request.basesPaid.runPass.1
      else
        request.basesPaid :=
  rfl

variable
    {request : Request}
    (settings : Settings)
    (notNegative : 0 ≤ request.available)
    (noMinimum : request.minimum = 0)
    (isAmount : request.available ≤ Amount.greatest)

include notNegative noMinimum isAmount

/-- In the end each account holds the base of its company and what the waterfall added. -/
theorem forall₂_topUps_finalLedger :
    List.Forall₂
      (fun entry account =>
        request.IsToppedUp entry.1 entry.2 account)
      (request.topUps request.afterBases (ranked request.companies))
      ((Strategy.proRata settings).finalLedger request).accounts := by
  have holds :=
    Request.forall₂_basesPaid notNegative noMinimum isAmount
  have pool := Request.pool_basesPaid notNegative noMinimum isAmount
  have sound := request.sound_basesPaid
  have minimum : request.basesPaid.minimum = 0 := noMinimum
  rw [finalLedger_of_proRata]
  split
  · have accounts :
        request.basesPaid.runPass.1.accounts =
          (serve request.basesPaid.minimum request.basesPaid.pool
              (request.basesPaid.accounts.map (·, .unlimited))).map
            fun (account, grant) =>
              account.receive (request.basesPaid.passes + 1) grant :=
      rfl
    rw [accounts, minimum, ← pool]
    exact Request.forall₂_serve_topUps sound.pool_nonneg holds _
  · rename_i stays
    have resting : request.basesPaid.AtRest := by
      by_contra active
      exact stays (sound.not_atRest_iff.mp active)
    rw [← pool, Request.topUps_eq_map_zero, List.forall₂_map_left_iff]
    · exact holds
    · intro company member
      obtain ⟨account, inLedger, ofCompany⟩ :=
        exists_mem_left_of_forall₂ holds.flip member
      have nothing :=
        resting.amount_grant_eq_zero sound inLedger (Int.le_refl _)
          .unlimited
      rw [minimum] at nothing
      rw [← (ofCompany.turn sound.pool_nonneg 0).1]
      exact nothing

/-- The allocations of a plan in proportion, in ranking order. -/
theorem forall₂_topUps_allocations :
    List.Forall₂
      (fun (entry : Company × Int) allocation =>
        allocation.companyId = entry.1.id ∧
          allocation.cap = (request.capOf entry.1).amount ∧
          allocation.planned = request.baseOf entry.1 + entry.2)
      (request.topUps request.afterBases (ranked request.companies))
      ((Strategy.proRata settings).planValid request).allocations := by
  change List.Forall₂ _ _
    ((Strategy.proRata settings).finalLedger request).allocations
  rw [Ledger.allocations, List.forall₂_map_right_iff]
  refine
    (forall₂_topUps_finalLedger settings notNegative noMinimum
      isAmount).imp ?_
  intro entry account holds
  have terms := holds.terms_eq
  injection terms with sameId _
  exact ⟨sameId, holds.cap_eq, holds.granted_eq⟩

section Reserves

variable
    (valid : request.validate = .ok ())

include valid

/-- A company is planned its base and its top-up. -/
theorem exists_reserves_of_mem_topUps
    {entry : Company × Int}
    (member :
      entry ∈
        request.topUps request.afterBases (ranked request.companies)) :
    ∃ allocation,
      ((Strategy.proRata settings).planValid request).Reserves request
          entry.1 allocation ∧
        allocation.planned = request.baseOf entry.1 + entry.2 := by
  obtain ⟨allocation, inPlan, sameId, sameCap, planned⟩ :=
    exists_mem_left_of_forall₂
      (forall₂_topUps_allocations settings notNegative noMinimum
        isAmount).flip
      member
  exact ⟨allocation, reserves_of_mem valid inPlan sameId sameCap, planned⟩

/-- No company is planned less than its base. -/
theorem exists_reserves_base_le
    {company : Company}
    (member : company ∈ request.companies) :
    ∃ allocation,
      ((Strategy.proRata settings).planValid request).Reserves request
          company allocation ∧
        request.baseOf company ≤ allocation.planned := by
  have afterBases :=
    Request.afterBases_nonneg notNegative noMinimum isAmount
  have ranking :=
    request.forall₂_topUps request.afterBases
      (ranked request.companies)
  obtain ⟨entry, inTopUps, ofCompany⟩ :=
    exists_mem_left_of_forall₂ ranking.flip
      ((ranked_perm request.companies).mem_iff.mpr member)
  obtain ⟨allocation, reserves, planned⟩ :=
    exists_reserves_of_mem_topUps settings notNegative noMinimum
      isAmount valid inTopUps
  have added := request.topUp_nonneg afterBases _ inTopUps
  rw [ofCompany] at reserves planned
  exact ⟨allocation, reserves, by omega⟩

/-- Only those behind companies with all of their cap receive more than their base. -/
theorem exists_reserves_full_ahead
    {higher lower : Company}
    (higherMember : higher ∈ request.companies)
    (lowerMember : lower ∈ request.companies)
    (ahead : higher.comparePriority lower = .lt) :
    ∃ first second,
      ((Strategy.proRata settings).planValid request).Reserves request
          higher first ∧
        ((Strategy.proRata settings).planValid request).Reserves
          request lower second ∧
        (request.baseOf lower < second.planned →
          first.planned = (request.capOf higher).amount) := by
  have afterBases :=
    Request.afterBases_nonneg notNegative noMinimum isAmount
  obtain ⟨firstEntry, firstIn, secondEntry, secondIn, isHigher,
      isLower, leavesNoRoom⟩ :=
    exists_pair_of_forall₂
      (request.forall₂_topUps request.afterBases
        (ranked request.companies))
      (ranked_pairwise (Request.distinct_ids_of_validate valid))
      (fun _ _ => Company.comparePriority_asymm)
      (request.pairwise_topUps afterBases (ranked request.companies))
      ((ranked_perm request.companies).mem_iff.mpr higherMember)
      ((ranked_perm request.companies).mem_iff.mpr lowerMember) ahead
  obtain ⟨first, firstReserves, firstPlanned⟩ :=
    exists_reserves_of_mem_topUps settings notNegative noMinimum
      isAmount valid firstIn
  obtain ⟨second, secondReserves, secondPlanned⟩ :=
    exists_reserves_of_mem_topUps settings notNegative noMinimum
      isAmount valid secondIn
  rw [isHigher] at firstReserves firstPlanned leavesNoRoom
  rw [isLower] at secondReserves secondPlanned
  refine ⟨first, second, firstReserves, secondReserves, ?_⟩
  intro added
  have full := leavesNoRoom (by omega)
  unfold Request.roomOf at full
  omega

end Reserves

/-- There is a second pass exactly if something is left that somebody can take. -/
theorem passes_finalLedger_proRata :
    (((Strategy.proRata settings).finalLedger request).passes = 1 ∨
        ((Strategy.proRata settings).finalLedger request).passes =
          2) ∧
      (((Strategy.proRata settings).finalLedger request).passes = 2 ↔
        0 < request.afterBases ∧
          ∃ company ∈ request.companies,
            request.baseOf company <
              (request.capOf company).amount) := by
  rw [← Request.basesPaid_goesOn_iff notNegative noMinimum isAmount,
    finalLedger_of_proRata]
  split
  · exact ⟨Or.inr rfl, iff_of_true rfl ‹_›⟩
  · exact ⟨Or.inl rfl, iff_of_false nofun ‹_›⟩

end Strategy

/--
A plan pays each company its base, and tops the bases up in ranking order by a
waterfall over what the caps leave open.
-/
structure Plan.TopsUpBases
    (request : Request)
    (plan : Plan) : Prop where
  afterBases_nonneg : 0 ≤ request.afterBases
  allocations :
    List.Forall₂
      (fun (entry : Company × Int) allocation =>
        allocation.companyId = entry.1.id ∧
          allocation.cap = (request.capOf entry.1).amount ∧
          allocation.planned = request.baseOf entry.1 + entry.2)
      (request.topUps request.afterBases (ranked request.companies))
      plan.allocations
  base_le_planned :
    ∀ company ∈ request.companies,
      ∃ allocation,
        plan.Reserves request company allocation ∧
          request.baseOf company ≤ allocation.planned
  full_ahead :
    ∀ higher ∈ request.companies,
      ∀ lower ∈ request.companies,
        higher.comparePriority lower = .lt →
        ∃ first second,
          plan.Reserves request higher first ∧
            plan.Reserves request lower second ∧
            (request.baseOf lower < second.planned →
              first.planned = (request.capOf higher).amount)
  passes_eq : plan.summary.passes = 1 ∨ plan.summary.passes = 2
  passes_eq_two_iff :
    plan.summary.passes = 2 ↔
      0 < request.afterBases ∧
        ∃ company ∈ request.companies,
          request.baseOf company < (request.capOf company).amount

namespace Strategy

/--
Without a positive least reserve, every plan in proportion for a valid request
whose capital is an amount pays the bases and tops them up in ranking order.
-/
theorem plan_tops_up_bases
    {request : Request}
    (valid : request.validate = .ok ())
    (isAmount : request.available ≤ Amount.greatest)
    (unset :
      ∀ least,
        request.constraints.minReserve = some least → least ≤ 0)
    (settings : Settings) :
    ∃ plan,
      (Strategy.proRata settings).plan request = .ok plan ∧
        plan.TopsUpBases request := by
  have notNegative := Request.available_nonneg_of_validate valid
  have noMinimum := Request.minimum_eq_zero unset
  have passes :=
    passes_finalLedger_proRata settings notNegative noMinimum isAmount
  refine
    ⟨(Strategy.proRata settings).planValid request,
      plan_of_valid valid _, ?_⟩
  exact {
    afterBases_nonneg :=
      Request.afterBases_nonneg notNegative noMinimum isAmount
    allocations :=
      forall₂_topUps_allocations settings notNegative noMinimum
        isAmount
    base_le_planned := fun _ =>
      exists_reserves_base_le settings notNegative noMinimum isAmount
        valid
    full_ahead := fun _ higherMember _ =>
      exists_reserves_full_ahead settings notNegative noMinimum
        isAmount valid higherMember
    passes_eq := passes.1
    passes_eq_two_iff := passes.2 }

/-- Rounding leaves one unit to three seed companies; it goes to the first of them. -/
theorem plan_tops_up_bases_threeSeeds :
    ∃ plan,
      (Strategy.proRata Settings.standard).plan
          { Request.threeSeeds with
            available := 1000
            constraints := Constraints.none } =
        .ok plan ∧
        plan.allocations.map Allocation.planned = [527, 52, 421] ∧
        plan.summary.passes = 2 ∧
        plan.TopsUpBases
          { Request.threeSeeds with
            available := 1000
            constraints := Constraints.none } := by
  have valid :
      Request.validate
          { Request.threeSeeds with
            available := 1000
            constraints := Constraints.none } =
        .ok () := rfl
  obtain ⟨plan, planned, topsUp⟩ :=
    plan_tops_up_bases valid (by decide) nofun Settings.standard
  refine ⟨plan, planned, ?_, ?_, topsUp⟩ <;>
    rw [← (plan_eq_ok_iff.mp planned).2] <;>
    simp only [planValid, Plan.ofLedger, finalLedger,
      Request.ledger, Request.accounts_eq_map, Request.weights_eq_map,
      Request.ranked_threeSeeds] <;>
    decide

end Strategy

end FollowOn

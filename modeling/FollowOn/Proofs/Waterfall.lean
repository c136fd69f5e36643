import FollowOn.Proofs.Conservation
import FollowOn.Proofs.Lookup
import FollowOn.Proofs.Reasons

namespace FollowOn

/-!
# Greedy plans are waterfalls

A waterfall goes through the companies once, in ranking order, and gives each
its cap or what is left of the capital, unless that is below the least
reserve. It knows nothing of accounts, marks or passes. A greedy plan is this
waterfall, whatever its settings are: its first pass is the waterfall, and
leaves a ledger at rest, so no remainder pass ever runs. Since a waterfall
never looks ahead, nobody's allocation depends on the companies ranked later.
-/

/--
What a company with the given cap is paid when `pool` is left: all it can
take, unless a positive least reserve exceeds that.
-/
def waterfallPayment
    (minReserve : Option Int)
    (cap pool : Int) :
    Int :=
  if ∃ least ∈ minReserve, 0 < least ∧ min cap pool < least then
    0
  else
    min cap pool

namespace Request

/-- The allocation of a company that comes up when `pool` is left. -/
def waterfallAllocation
    (request : Request)
    (pool : Int)
    (company : Company) :
    Allocation :=
  let cap := request.capOf company
  let payment :=
    waterfallPayment request.constraints.minReserve cap.amount pool
  { companyId := company.id
    planned := payment
    cap := cap.amount
    reason :=
      if payment = cap.amount then
        cap.reason
      else if payment = 0 ∧ 0 < pool then
        .belowMinimum
      else
        .capitalExhausted
    pass := if 0 < payment then 1 else 0
    policyDefaulted := cap.policyDefaulted }

/-- The allocations of companies in order, out of `pool`, and what they leave of it. -/
def waterfall
    (request : Request) :
    (pool : Int) →
    List Company →
    List Allocation × Int
  | pool, [] => ([], pool)
  | pool, company :: rest =>
      let allocation := request.waterfallAllocation pool company
      let later := request.waterfall (pool - allocation.planned) rest
      (allocation :: later.1, later.2)

/-- The plan of one waterfall over the ranked companies of a request. -/
def waterfallPlan (request : Request) : Plan :=
  let (allocations, left) :=
    request.waterfall request.available (ranked request.companies)
  { allocations := allocations
    allocated := totalPlanned allocations
    remaining := left
    summary :=
      { available := request.available
        allocated := totalPlanned allocations
        fundedCount :=
          allocations.countP fun allocation =>
            decide (0 < allocation.planned)
        ranking := rankedIds request.companies
        conserved := true
        passes := 1
        horizonMonths := request.constraints.horizonMonths
        discrepancy := none } }

end Request

namespace Request

variable
    {request : Request}

/-- A payment of the waterfall is cut by the minimum of the ledger. -/
theorem waterfallPayment_eq
    {cap pool : Int}
    (notNegative : 0 ≤ min cap pool) :
    waterfallPayment request.constraints.minReserve cap pool =
      if min cap pool < request.minimum then 0 else min cap pool := by
  unfold waterfallPayment minimum
  cases request.constraints.minReserve with
  | none =>
      simp [Int.not_lt.mpr notNegative]
  | some least =>
      simp only [Option.mem_some_iff, exists_eq_left', Option.getD_some]
      congr 1
      rw [eq_iff_iff]
      omega

/-- What the first turn of a company's account comes to in a greedy pass. -/
theorem grant_opened_cases
    (request : Request)
    {pool : Int}
    (poolNotNegative : 0 ≤ pool)
    (company : Company) :
    let cap := request.capOf company
    let payment :=
      waterfallPayment request.constraints.minReserve cap.amount pool
    let grant :=
      (Account.opened company.id cap).grant request.minimum pool
        .unlimited
    (min cap.amount pool = 0 ∧ payment = 0 ∧ grant = .closed) ∨
      (0 < min cap.amount pool ∧ payment = 0 ∧
        grant = .belowMinimum) ∨
      (0 < payment ∧ payment = min cap.amount pool ∧
        grant = .paid payment) := by
  have capNotNegative : 0 ≤ (request.capOf company).amount :=
    evaluateCap_amount_nonneg ..
  intro cap payment grant
  have notNegative : 0 ≤ min cap.amount pool :=
    Int.le_min.mpr ⟨capNotNegative, poolNotNegative⟩
  have given : grant = _ :=
    Account.grant_opened capNotNegative poolNotNegative
      request.minimum company.id
  have paid : payment = _ := waterfallPayment_eq notNegative
  rw [given, paid]
  by_cases nothing : min cap.amount pool = 0
  · refine Or.inl ⟨nothing, ?_, if_pos nothing⟩
    rw [nothing, ite_self]
  have something : 0 < min cap.amount pool :=
    lt_of_le_of_ne notNegative (Ne.symm nothing)
  by_cases tooSmall : min cap.amount pool < request.minimum
  · refine Or.inr (Or.inl ⟨something, if_pos tooSmall, ?_⟩)
    rw [if_neg nothing, if_pos tooSmall]
  · rw [if_neg nothing, if_neg tooSmall, if_neg tooSmall]
    exact Or.inr (Or.inr ⟨something, rfl, rfl⟩)

section Turn

variable
    (request)
    {pool after : Int}
    (poolNotNegative : 0 ≤ pool)
    (company : Company)
    (afterNotNegative : 0 ≤ after)
    (afterAtMost :
      after ≤
        pool - (request.waterfallAllocation pool company).planned)

include poolNotNegative

/-- A new account without a limit is granted what the waterfall plans. -/
theorem amount_grant_opened :
    ((Account.opened company.id (request.capOf company)).grant
        request.minimum pool .unlimited).amount =
      (request.waterfallAllocation pool company).planned := by
  rcases grant_opened_cases request poolNotNegative company with
    ⟨-, nothing, given⟩ | ⟨-, nothing, given⟩ | ⟨-, -, given⟩
  · exact (congrArg Grant.amount given).trans nothing.symm
  · exact (congrArg Grant.amount given).trans nothing.symm
  · exact congrArg Grant.amount given

include afterNotNegative afterAtMost

/--
An account that its first turn leaves short of its cap, and without a mark,
was paid all that was left.
-/
theorem reason_turn_opened :
    ((Account.opened company.id (request.capOf company)).turn
        request.minimum pool 1 .unlimited).reason after =
      (request.waterfallAllocation pool company).reason := by
  have sound :=
    (Account.sound_opened company.id (request.capOf company)).turn
      request.minimum pool 1 .unlimited
  have settled := sound.settled_iff
  rw [Account.granted_turn, Account.cap_turn,
    amount_grant_opened request poolNotNegative,
    cap_opened_capOf request company, Account.granted_opened,
    Int.zero_add] at settled
  simp only [waterfallAllocation] at settled afterAtMost ⊢
  unfold Account.reason
  rw [Account.capReason_turn, Account.belowMinimum_turn]
  by_cases full :
      waterfallPayment request.constraints.minReserve
          (request.capOf company).amount pool =
        (request.capOf company).amount
  · rw [if_pos (settled.mpr full), if_pos full]
    rfl
  rw [if_neg (mt settled.mp full), if_neg full]
  rcases grant_opened_cases request poolNotNegative company with
    ⟨noRoom, nothing, given⟩ | ⟨hasRoom, nothing, given⟩ |
      ⟨positive, all, given⟩
  · have empty : ¬0 < pool := by
      omega
    have emptyAfter : after = 0 := by
      omega
    simp [given, Offer.holdsBack, empty, emptyAfter]
  · have hasPool : 0 < pool := by
      omega
    simp [given, Offer.holdsBack, nothing, hasPool]
  · have emptyAfter : after = 0 := by
      omega
    simp [given, Offer.holdsBack, emptyAfter,
      Int.ne_of_gt positive]

/-- The turn of a new account in a greedy pass is a step of the waterfall. -/
theorem allocation_turn_opened :
    ((Account.opened company.id (request.capOf company)).turn
        request.minimum pool 1 .unlimited).allocation after =
      request.waterfallAllocation pool company := by
  have planned := amount_grant_opened request poolNotNegative company
  have reason :=
    reason_turn_opened request poolNotNegative company
      afterNotNegative afterAtMost
  have cap := cap_opened_capOf request company
  have pass :
      ((Account.opened company.id (request.capOf company)).turn
          request.minimum pool 1 .unlimited).lastPaid =
        (request.waterfallAllocation pool company).pass := by
    rw [Account.lastPaid_turn]
    simp only [waterfallAllocation]
    rcases grant_opened_cases request poolNotNegative company with
      ⟨-, nothing, given⟩ | ⟨-, nothing, given⟩ | ⟨positive, -, given⟩
    · simp [given, nothing]
    · simp [given, nothing]
    · simp [given, positive]
  rw [Account.allocation, reason, pass, Account.granted_turn,
    planned, Account.cap_turn, cap]
  simp [waterfallAllocation, Account.opened]

end Turn

/-- What a greedy pass offers the new accounts of companies. -/
def greedyOffers
    (request : Request)
    (companies : List Company) :
    List (Account × Offer) :=
  companies.map fun company =>
    (Account.opened company.id (request.capOf company), .unlimited)

/-- A greedy pass over new accounts is the waterfall over their companies. -/
theorem waterfall_eq_serve
    (request : Request)
    {pool : Int}
    (poolNotNegative : 0 ≤ pool)
    (companies : List Company) :
    let served :=
      serve request.minimum pool (request.greedyOffers companies)
    let after := pool - totalGranted served
    request.waterfall pool companies =
      (served.map fun (account, grant) =>
          (account.receive 1 grant).allocation after,
        after) := by
  induction companies generalizing pool with
  | nil =>
      simp [waterfall, greedyOffers, serve, totalGranted]
  | cons company rest inductionHypothesis =>
      have paid :=
        amount_grant_opened request poolNotNegative company
      have left :=
        sub_amount_grant_nonneg poolNotNegative request.minimum
          (Account.opened company.id (request.capOf company)) .unlimited
      have followed := inductionHypothesis left
      rw [paid] at left followed
      have bounds :
          0 ≤ totalGranted
                (serve request.minimum
                  (pool - (request.waterfallAllocation pool company).planned)
                  (request.greedyOffers rest)) ∧
              _ :=
        totalGranted_bounds left (request.greedyOffers rest)
      -- What is left at the end is at most what the first company leaves,
      -- so its reason is settled by its own turn.
      have first :=
        allocation_turn_opened request poolNotNegative company
          (Int.sub_nonneg_of_le bounds.2)
          (Int.sub_le_self _ bounds.1)
      simp only [Account.turn] at first
      simp only [greedyOffers] at followed first ⊢
      simp only [List.map_cons, sub_totalGranted_serve_cons, paid]
      simp only [waterfall, followed, serve, List.map_cons, paid,
        first]

/-- A greedy strategy makes each ranked company an offer without a limit. -/
theorem offers_ledger
    (request : Request) :
    request.ledger.offers =
      request.greedyOffers (ranked request.companies) := by
  change request.accounts.map (fun account => (account, Offer.unlimited)) = _
  rw [accounts_eq_map, List.map_map]
  rfl

/-- The first pass over the ledger of a request, if greedy, is the waterfall. -/
theorem waterfall_eq_runPass
    (notNegative : 0 ≤ request.available) :
    request.waterfall request.available (ranked request.companies) =
      (request.ledger.runPass.1.allocations,
        request.ledger.runPass.1.pool) := by
  have pool : request.ledger.pool = request.available :=
    Int.max_eq_right notNegative
  have served :=
    waterfall_eq_serve request notNegative (ranked request.companies)
  rw [served, Ledger.allocations_eq_map]
  simp only [Ledger.runPass, Ledger.runOffers, offers_ledger, pool,
    minimum_ledger, List.map_map]
  rfl

end Request

namespace Strategy

variable
    {request : Request}
    {settings : Settings}

/-- A greedy first pass is the last one. -/
theorem finalLedger_eq_of_greedy
    (greedy : settings.sharing = .greedy)
    (request : Request) :
    (Strategy.constrained settings).finalLedger request =
      request.ledger.runPass.1 := by
  have openingSound :=
    sound_openingLedger (.constrained settings) request
  have resting :=
    Ledger.atRest_runPass_of_greedy openingSound greedy
  obtain ⟨stop, unchanged⟩ :=
    resting.exists_redistribute_eq settings.remainderPasses
  have opening :
      (Strategy.constrained settings).openingLedger request =
        request.ledger := by
    simp only [openingLedger, greedy]
    rfl
  rw [opening] at unchanged
  simp only [openingLedger] at opening
  simp only [finalLedger, opening, unchanged]

/-- A greedy plan for a valid request is the waterfall. -/
theorem planValid_eq_waterfallPlan
    (valid : request.validate = .ok ())
    (greedy : settings.sharing = .greedy) :
    (Strategy.constrained settings).planValid request =
      request.waterfallPlan := by
  have sound :=
    (continues_finalLedger (.constrained settings) request).sound
  have accounted :=
    sound.accountsFor_ofLedger
      (capital_finalLedger valid (.constrained settings))
      (rankedIds request.companies) settings.tolerancePerCompany
  have conserved := accounted.conserved
  have noDiscrepancy := accounted.discrepancy_eq_none
  have final := finalLedger_eq_of_greedy greedy request
  have waterfall :=
    Request.waterfall_eq_runPass
      (Request.available_nonneg_of_validate valid)
  rw [← final] at waterfall
  have passes :
      ((Strategy.constrained settings).finalLedger request).passes = 1 := by
    rw [final]
    rfl
  simp only [Plan.ofLedger] at conserved noDiscrepancy
  simp only [planValid, Plan.ofLedger, Request.waterfallPlan,
    Strategy.settings, conserved, noDiscrepancy, waterfall, passes]

end Strategy

/-- The waterfall goes on behind some companies with what they left. -/
theorem Request.waterfall_append
    (request : Request)
    (pool : Int)
    (before after : List Company) :
    request.waterfall pool (before ++ after) =
      ((request.waterfall pool before).1 ++
          (request.waterfall (request.waterfall pool before).2 after).1,
        (request.waterfall (request.waterfall pool before).2 after).2) := by
  induction before generalizing pool with
  | nil =>
      rfl
  | cons company rest inductionHypothesis =>
      simp only [List.cons_append, waterfall, inductionHypothesis]

/-- Which companies a request lists plays no part in a waterfall over given ones. -/
theorem Request.waterfall_withCompanies
    (request : Request)
    (others : List Company)
    (pool : Int)
    (companies : List Company) :
    Request.waterfall { request with companies := others } pool
        companies =
      request.waterfall pool companies := by
  induction companies generalizing pool with
  | nil =>
      rfl
  | cons company rest inductionHypothesis =>
      simp only [waterfall, inductionHypothesis]
      rfl

/-- The allocation of a company is made from what those before it leave. -/
theorem Request.waterfallAllocation_mem
    {request : Request}
    {company : Company}
    {before after : List Company}
    (shape : ranked request.companies = before ++ company :: after) :
    request.waterfallAllocation
        (request.waterfall request.available before).2 company ∈
      request.waterfallPlan.allocations := by
  have isAllocation :
      request.waterfallPlan.allocations =
        (request.waterfall request.available
          (before ++ company :: after)).1 := by
    rw [← shape]
    rfl
  rw [isAllocation, waterfall_append]
  exact List.mem_append_right _ List.mem_cons_self

namespace Strategy

/--
Every greedy plan for a valid request is the waterfall over its ranked
companies. So if two valid requests differ only in companies that are ranked
after a given one, it has the same allocation in both plans.
-/
theorem plan_is_waterfall
    (settings : Settings)
    (greedy : settings.sharing = .greedy) :
    (∀ request : Request,
      request.validate = .ok () →
      (Strategy.constrained settings).plan request =
        .ok request.waterfallPlan) ∧
      ∀ (request : Request) (others : List Company)
          (company : Company),
        request.validate = .ok () →
        { request with companies := others }.validate = .ok () →
        company ∈ request.companies →
        company ∈ others →
        (∀ other : Company,
          other.comparePriority company = .lt →
          (other ∈ request.companies ↔ other ∈ others)) →
        ∃ plan otherPlan allocation,
          (Strategy.constrained settings).plan request = .ok plan ∧
            (Strategy.constrained settings).plan
                { request with companies := others } =
              .ok otherPlan ∧
            plan.allocationFor? company.id = some allocation ∧
            otherPlan.allocationFor? company.id = some allocation := by
  have planned :
      ∀ request : Request,
        request.validate = .ok () →
        (Strategy.constrained settings).plan request =
          .ok request.waterfallPlan := by
    intro request valid
    rw [plan_of_valid valid, planValid_eq_waterfallPlan valid greedy]
  have found :
      ∀ (request : Request) (before after : List Company)
          (company : Company),
        request.validate = .ok () →
        ranked request.companies = before ++ company :: after →
        request.waterfallPlan.allocationFor? company.id =
          some
            (request.waterfallAllocation
              (request.waterfall request.available before).2
              company) := by
    intro request before after company valid shape
    have member := Request.waterfallAllocation_mem shape
    rw [← planValid_eq_waterfallPlan valid greedy] at member ⊢
    exact (reserves_of_mem valid member rfl rfl).found
  refine ⟨planned, ?_⟩
  intro request others company valid otherValid member otherMember
    sameAhead
  obtain ⟨before, after, otherAfter, shape, otherShape⟩ :=
    exists_common_ranking (Request.distinct_ids_of_validate valid)
      (Request.distinct_ids_of_validate otherValid) member otherMember
      sameAhead
  refine
    ⟨_, _, _, planned _ valid, planned _ otherValid,
      found _ _ _ _ valid shape, ?_⟩
  rw [found _ _ _ _ otherValid otherShape,
    Request.waterfall_withCompanies]
  rfl

/--
With more capital, a greedy plan pays two of three seed companies in full and
the third what is left. Whoever takes the place of the third one, the second
has the same allocation.
-/
theorem plan_is_waterfall_threeSeeds :
    (Strategy.constrained ⟨7, -3, .greedy⟩).plan
        { Request.threeSeeds with available := 1500 } =
        .ok
          (Request.waterfallPlan
            { Request.threeSeeds with available := 1500 }) ∧
      (Request.waterfallPlan
          { Request.threeSeeds with
            available := 1500 }).allocations.map Allocation.planned =
        [1000, 100, 400] ∧
      ∃ plan otherPlan allocation,
        (Strategy.constrained ⟨7, -3, .greedy⟩).plan
            { Request.threeSeeds with available := 1500 } =
          .ok plan ∧
          (Strategy.constrained ⟨7, -3, .greedy⟩).plan
              { Request.threeSeeds with
                available := 1500
                companies :=
                  [⟨"a", "Alpha", "seed", 1000, ⟨5000000⟩, none⟩,
                    ⟨"b", "Beta", "seed", 100, ⟨4000000⟩, none⟩,
                    ⟨"d", "Delta", "seed", 70, ⟨2000000⟩, none⟩] } =
            .ok otherPlan ∧
          plan.allocationFor? "b" = some allocation ∧
          otherPlan.allocationFor? "b" = some allocation := by
  obtain ⟨isWaterfall, unaffected⟩ :=
    plan_is_waterfall ⟨7, -3, .greedy⟩ rfl
  refine
    ⟨isWaterfall { Request.threeSeeds with available := 1500 } rfl, ?_,
      unaffected { Request.threeSeeds with available := 1500 }
        [⟨"a", "Alpha", "seed", 1000, ⟨5000000⟩, none⟩,
          ⟨"b", "Beta", "seed", 100, ⟨4000000⟩, none⟩,
          ⟨"d", "Delta", "seed", 70, ⟨2000000⟩, none⟩]
        ⟨"b", "Beta", "seed", 100, ⟨4000000⟩, none⟩ rfl rfl
        (by simp [Request.threeSeeds]) (by simp) ?_⟩
  · simp only [Request.waterfallPlan, Request.ranked_threeSeeds]
    decide
  · intro other ahead
    simp only [Request.threeSeeds, List.mem_cons, List.not_mem_nil,
      or_false]
    refine or_congr_right (or_congr_right ?_)
    constructor
    · rintro rfl
      exact absurd ahead (by decide)
    · rintro rfl
      exact absurd ahead (by decide)

end Strategy

end FollowOn

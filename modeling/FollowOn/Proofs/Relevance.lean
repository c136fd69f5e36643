import FollowOn.Proofs.Conservation

namespace FollowOn

/-!
# What a plan depends on

A plan is drawn up from the ranking of the companies, from what each of them
contributes to its cap, and from the policies of their stages. Names, exit
multiples beyond the ranking, and policies of other stages have no part in it.
Weights count only where the capital is split in proportion, and there the
settings do not, since the audit finds nothing at any tolerance.
-/

/-- Two companies agree on all that counts once they are ranked. -/
structure Company.AgreesWith (company other : Company) : Prop where
  id_eq : company.id = other.id
  stage_eq : company.stage = other.stage
  invested_eq : company.invested = other.invested
  hardCap_eq : company.hardCap = other.hardCap

/-- A company agrees with itself. -/
theorem Company.AgreesWith.refl
    (company : Company) :
    company.AgreesWith company :=
  ⟨rfl, rfl, rfl, rfl⟩

/-- The caps of companies that agree differ at most in the weights of their policies. -/
theorem Company.AgreesWith.evaluateCap_eq
    {company other : Company}
    (agrees : company.AgreesWith other)
    {policy otherPolicy : Option StagePolicy}
    (sameMultiple :
      policy.map StagePolicy.reserveMultiple =
        otherPolicy.map StagePolicy.reserveMultiple)
    (constraints : Constraints)
    (available : Int) :
    evaluateCap company policy constraints available =
      { evaluateCap other otherPolicy constraints available with
        priorityWeight :=
          (policy.map StagePolicy.priorityWeight).getD Ratio.one } := by
  have bothMissing : policy.isNone = otherPolicy.isNone := by
    rw [← Option.isNone_map (f := StagePolicy.reserveMultiple),
      sameMultiple, Option.isNone_map]
  simp only [evaluateCap, stageBound, stageMultipleOf, optionalBounds,
    agrees.invested_eq, agrees.hardCap_eq, sameMultiple, bothMissing]

namespace Request

/--
Two requests have the same capital and constraints, and companies that agree in
ranking order, with policies of their stages that have the same multiples.
-/
structure AgreesWith (request other : Request) : Prop where
  available_eq : request.available = other.available
  constraints_eq : request.constraints = other.constraints
  companies_agree :
    List.Forall₂ Company.AgreesWith
      (ranked request.companies) (ranked other.companies)
  multiples_eq :
    ∀ company ∈ request.companies,
      (policyFor? request.policies company.stage).map
          StagePolicy.reserveMultiple =
        (policyFor? other.policies company.stage).map
          StagePolicy.reserveMultiple

/-- The policies of the stages of a request have the same weights in another one. -/
def WeighsLike (request other : Request) : Prop :=
  ∀ company ∈ request.companies,
    (policyFor? request.policies company.stage).map
        StagePolicy.priorityWeight =
      (policyFor? other.policies company.stage).map
        StagePolicy.priorityWeight

namespace AgreesWith

variable
    {request other : Request}
    (agrees : request.AgreesWith other)

include agrees

/-- What is the same for companies that agree is the same along the ranking. -/
theorem map_ranked_eq
    {α : Type}
    {left right : Company → α}
    (same :
      ∀ company ∈ request.companies,
        ∀ counterpart,
          company.AgreesWith counterpart →
            left company = right counterpart) :
    (ranked request.companies).map left =
      (ranked other.companies).map right := by
  rw [← List.forall₂_eq_eq_eq, List.forall₂_map_left_iff,
    List.forall₂_map_right_iff]
  have withMembers :=
    (List.forall₂_and_left (ranked request.companies) _).mpr
      ⟨fun _ member => (ranked_perm request.companies).mem_iff.mp member,
        agrees.companies_agree⟩
  exact withMembers.imp fun company counterpart both =>
    same company both.1 counterpart both.2

/-- Companies that agree have one cap, but for the weight that comes with it. -/
theorem capOf_eq
    {company counterpart : Company}
    (member : company ∈ request.companies)
    (alike : company.AgreesWith counterpart) :
    request.capOf company =
      { other.capOf counterpart with
        priorityWeight := (request.capOf company).priorityWeight } := by
  have sameMultiple := agrees.multiples_eq company member
  rw [alike.stage_eq] at sameMultiple
  simp only [capOf, alike.stage_eq, agrees.available_eq,
    agrees.constraints_eq]
  exact alike.evaluateCap_eq sameMultiple _ _

/-- Requests that agree open the same accounts. -/
theorem accounts_eq :
    request.accounts = other.accounts := by
  rw [accounts_eq_map, accounts_eq_map]
  apply agrees.map_ranked_eq
  intro company member counterpart alike
  rw [agrees.capOf_eq member alike, alike.id_eq]
  rfl

/-- Requests that agree start from the same ledger. -/
theorem ledger_eq :
    request.ledger = other.ledger := by
  rw [ledger, ledger, agrees.accounts_eq, agrees.available_eq,
    agrees.constraints_eq]

/-- Requests that agree have the same ranked ids. -/
theorem rankedIds_eq :
    rankedIds request.companies = rankedIds other.companies :=
  agrees.map_ranked_eq fun _ _ _ alike => alike.id_eq

/-- Requests that weigh alike have the same weights. -/
theorem weights_eq
    (weighs : request.WeighsLike other) :
    request.weights = other.weights := by
  rw [weights_eq_map, weights_eq_map]
  apply agrees.map_ranked_eq
  intro company member counterpart alike
  have sameWeight := weighs company member
  rw [alike.stage_eq] at sameWeight
  rw [agrees.capOf_eq member alike]
  simp only [capOf, evaluateCap, alike.stage_eq, sameWeight]

end AgreesWith

end Request

/-- The plan of a sound ledger does not depend on the tolerance of its audit. -/
theorem Ledger.Sound.ofLedger_eq
    {ledger : Ledger}
    (sound : ledger.Sound)
    {request : Request}
    (capital : ledger.capital = request.available)
    (ranking : List String)
    (tolerance otherTolerance : Int) :
    Plan.ofLedger request ranking tolerance ledger =
      Plan.ofLedger request ranking otherTolerance ledger := by
  have audited :
      ∀ tolerancePerCompany,
        audit? request.available ledger.allocations ledger.pool
          tolerancePerCompany = none :=
    (sound.accountsFor_ofLedger capital ranking tolerance).audit_eq_none
  simp only [Plan.ofLedger, passed_audit_eq_isNone,
    discrepancy_audit, audited]

namespace Strategy

variable
    {strategy : Strategy}
    {request other : Request}

/-- Requests that agree have one plan if their passes end alike. -/
theorem planValid_eq_of_agreesWith
    (agrees : request.AgreesWith other)
    (sameLedger :
      strategy.finalLedger request = strategy.finalLedger other) :
    strategy.planValid request = strategy.planValid other := by
  simp only [planValid, Plan.ofLedger, sameLedger, agrees.rankedIds_eq,
    agrees.available_eq, agrees.constraints_eq]

/-- The constrained strategy reads no weights. -/
theorem planValid_constrained_eq
    (agrees : request.AgreesWith other)
    (settings : Settings) :
    (Strategy.constrained settings).planValid request =
      (Strategy.constrained settings).planValid other := by
  apply planValid_eq_of_agreesWith agrees
  simp only [finalLedger, agrees.ledger_eq]

/-- Requests that agree and weigh alike have one plan under every strategy. -/
theorem planValid_eq_of_weighsLike
    (agrees : request.AgreesWith other)
    (weighs : request.WeighsLike other)
    (strategy : Strategy) :
    strategy.planValid request = strategy.planValid other := by
  apply planValid_eq_of_agreesWith agrees
  simp only [finalLedger, agrees.ledger_eq, agrees.weights_eq weighs]

/-- Only the tolerance of the audit could count in a split in proportion, and it does not. -/
theorem planValid_proRata_eq
    (valid : request.validate = .ok ())
    (settings otherSettings : Settings) :
    (Strategy.proRata settings).planValid request =
      (Strategy.proRata otherSettings).planValid request := by
  have sound :=
    (continues_finalLedger (.proRata settings) request).sound
  exact
    sound.ofLedger_eq (capital_finalLedger valid (.proRata settings))
      _ _ _

end Strategy

namespace Request

/--
Three seed companies under other names and multiples, with a weight for their
stage and a policy of a stage that none of them is at.
-/
def renamedSeeds (weight : Ratio) : Request :=
  { threeSeeds with
    companies :=
      [⟨"a", "Aleph", "seed", 1000, ⟨9000000⟩, none⟩,
        ⟨"b", "Bet", "seed", 100, ⟨1⟩, none⟩,
        ⟨"c", "Gimel", "growth", 1000, ⟨-3⟩, some 800⟩]
    policies :=
      [⟨"series_b", ⟨5000000⟩, Ratio.one⟩, ⟨"seed", Ratio.one, weight⟩] }

/-- The renamed companies are listed as they are ranked. -/
theorem ranked_renamedSeeds
    (weight : Ratio) :
    ranked (renamedSeeds weight).companies =
      (renamedSeeds weight).companies :=
  ranked_of_pairwise (by simp only [renamedSeeds]; decide)

/-- New names, exit multiples of the same order, and other weights leave requests in agreement. -/
theorem agreesWith_renamedSeeds
    (weight : Ratio) :
    threeSeeds.AgreesWith (renamedSeeds weight) where
  available_eq := rfl
  constraints_eq := rfl
  companies_agree := by
    rw [ranked_threeSeeds, ranked_renamedSeeds]
    exact
      .cons ⟨rfl, rfl, rfl, rfl⟩
        (.cons ⟨rfl, rfl, rfl, rfl⟩
          (.cons ⟨rfl, rfl, rfl, rfl⟩ .nil))
  multiples_eq := by
    simp only [policyFor?_eq_find?, threeSeeds,
      List.forall_mem_cons]
    exact ⟨rfl, rfl, rfl, fun _ member => (List.not_mem_nil member).elim⟩

/-- With a weight of one the renamed companies weigh like the others. -/
theorem weighsLike_renamedSeeds :
    threeSeeds.WeighsLike (renamedSeeds Ratio.one) := by
  simp only [WeighsLike, policyFor?_eq_find?, threeSeeds,
    List.forall_mem_cons]
  exact ⟨rfl, rfl, rfl, fun _ member => (List.not_mem_nil member).elim⟩

end Request

/--
Valid requests that agree have the same plan from every strategy if the weights
of their policies are the same too. The constrained strategy has the same plan
in any case, and the other one has the same plan whatever its settings are.
-/
theorem plan_depends_on_relevant_parts :
    (∀ (request other : Request),
      request.validate = .ok () →
      other.validate = .ok () →
      request.AgreesWith other →
      request.WeighsLike other →
      ∀ strategy : Strategy,
        ∃ plan,
          strategy.plan request = .ok plan ∧
            strategy.plan other = .ok plan) ∧
      (∀ (request other : Request),
        request.validate = .ok () →
        other.validate = .ok () →
        request.AgreesWith other →
        ∀ settings,
          ∃ plan,
            (Strategy.constrained settings).plan request = .ok plan ∧
              (Strategy.constrained settings).plan other = .ok plan) ∧
      ∀ request : Request,
        request.validate = .ok () →
        ∀ settings otherSettings,
          ∃ plan,
            (Strategy.proRata settings).plan request = .ok plan ∧
              (Strategy.proRata otherSettings).plan request =
                .ok plan := by
  refine ⟨?_, ?_, ?_⟩
  · intro request other valid otherValid agrees weighs strategy
    refine ⟨_, Strategy.plan_of_valid valid strategy, ?_⟩
    rw [Strategy.planValid_eq_of_weighsLike agrees weighs]
    exact Strategy.plan_of_valid otherValid strategy
  · intro request other valid otherValid agrees settings
    refine ⟨_, Strategy.plan_of_valid valid (.constrained settings), ?_⟩
    rw [Strategy.planValid_constrained_eq agrees]
    exact Strategy.plan_of_valid otherValid (.constrained settings)
  · intro request valid settings otherSettings
    refine ⟨_, Strategy.plan_of_valid valid (.proRata settings), ?_⟩
    rw [Strategy.planValid_proRata_eq valid settings otherSettings]
    exact Strategy.plan_of_valid valid (.proRata otherSettings)

/--
Other names, other multiples and a policy of another stage leave the plan of
three seed companies as it is, another weight leaves their constrained plan, and
other settings leave their plan in proportion.
-/
theorem plan_depends_on_relevant_parts_threeSeeds :
    Request.threeSeeds.validate = .ok () ∧
      (Request.renamedSeeds Ratio.one).validate = .ok () ∧
      (Request.renamedSeeds ⟨7000000⟩).validate = .ok () ∧
      (∃ plan,
        (Strategy.proRata .standard).plan Request.threeSeeds =
            .ok plan ∧
          (Strategy.proRata .standard).plan
            (Request.renamedSeeds Ratio.one) = .ok plan) ∧
      (∃ plan,
        (Strategy.constrained ⟨1, 1, .evenShare⟩).plan
            Request.threeSeeds = .ok plan ∧
          (Strategy.constrained ⟨1, 1, .evenShare⟩).plan
            (Request.renamedSeeds ⟨7000000⟩) = .ok plan) ∧
      ∃ plan,
        (Strategy.proRata .standard).plan Request.threeSeeds =
            .ok plan ∧
          (Strategy.proRata ⟨0, -5, .evenShare⟩).plan
            Request.threeSeeds = .ok plan := by
  have valid := Request.validate_threeSeeds
  have validRenamed :
      (Request.renamedSeeds Ratio.one).validate = .ok () := rfl
  have validReweighed :
      (Request.renamedSeeds ⟨7000000⟩).validate = .ok () := rfl
  obtain ⟨ofAll, ofConstrained, ofProRata⟩ :=
    plan_depends_on_relevant_parts
  exact
    ⟨valid, validRenamed, validReweighed,
      ofAll _ _ valid validRenamed
        (Request.agreesWith_renamedSeeds _)
        Request.weighsLike_renamedSeeds _,
      ofConstrained _ _ valid validReweighed
        (Request.agreesWith_renamedSeeds _) _,
      ofProRata _ valid _ _⟩

end FollowOn

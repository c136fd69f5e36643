import FollowOn.Proofs.Validation
import FollowOn.Strategy

namespace FollowOn

/-!
# The first violated check

Everything that validation looks at is one list of checks, in a fixed order:
first the request as a whole, then each company against those before it, each
policy against those before it, and the constraints. A request is turned down
for the first check of this list that it violates, whatever else is wrong with
it, and by every strategy alike. It violates none exactly if it is well formed.
-/

/-- A condition that turns a request down, and the fault that names it. -/
structure Check where
  violated : Bool
  fault : RequestFault
deriving Repr, DecidableEq

/-- The fault of the first violated check, if one is violated. -/
def reportFirst (checks : List Check) : Except RequestFault Unit :=
  match checks.find? Check.violated with
  | some check => .error check.fault
  | none => .ok ()

/-- Some check of a list is violated, none before it is, and it names the fault. -/
def IsFirstFault
    (checks : List Check)
    (fault : RequestFault) : Prop :=
  ∃ earlier check later,
    checks = earlier ++ check :: later ∧
      (∀ passed ∈ earlier, passed.violated = false) ∧
      check.violated = true ∧
      check.fault = fault

/-- The checks of a list, item by item, each item with those before it. -/
def checksInOrder
    {α : Type}
    (checksOf : α → List α → List Check)
    (items : List α) :
    List Check :=
  items.zipIdx.flatMap fun (item, place) =>
    checksOf item (items.take place)

/-- The check that an amount, if present, is not below zero. -/
def negativeCheck
    (amount : Option Int)
    (fault : Int → RequestFault) :
    List Check :=
  amount.toList.map fun value => ⟨decide (value < 0), fault value⟩

/-- The checks of one company after some earlier ones. -/
def Company.checks
    (company : Company)
    (earlier : List Company) :
    List Check :=
  [⟨Text.isBlank company.id,
      .invalidCompany company.id .blankId⟩,
    ⟨decide (company.id ∈ earlier.map Company.id),
      .duplicateCompany company.id⟩,
    ⟨decide (company.invested < 0),
      .invalidCompany company.id
        (.negativeInvested company.invested)⟩] ++
    negativeCheck company.hardCap fun amount =>
      .invalidCompany company.id (.negativeHardCap amount)

/-- The checks of one policy after some earlier ones. -/
def StagePolicy.checks
    (policy : StagePolicy)
    (earlier : List StagePolicy) :
    List Check :=
  [⟨Text.isBlank policy.stage, .invalidPolicy .blankStage⟩,
    ⟨decide (policy.stage ∈ earlier.map StagePolicy.stage),
      .duplicatePolicy policy.stage⟩,
    ⟨decide (policy.reserveMultiple.micros < 0),
      .invalidPolicy (.negativeMultiple policy.stage)⟩,
    ⟨decide (policy.priorityWeight.micros < 0),
      .invalidPolicy (.negativeWeight policy.stage)⟩]

/-- The check that the least first check stays within the greatest reserve. -/
def orderCheck :
    Option Int →
    Option Int →
    List Check
  | some least, some greatest =>
      [⟨decide (greatest < least),
        .invalidConstraints (.minExceedsMax least greatest)⟩]
  | _, _ => []

/-- The check that a share of the capital is above zero and at most one. -/
def shareCheck (share : Option Ratio) : List Check :=
  share.toList.map fun ratio =>
    ⟨decide (ratio.micros ≤ 0 ∨ Ratio.scale < ratio.micros),
      .invalidConstraints (.shareOutOfRange ratio)⟩

/-- The checks of the constraints, in the order in which they are made. -/
def Constraints.checks (constraints : Constraints) : List Check :=
  negativeCheck constraints.minReserve
      (fun _ => .invalidConstraints .negativeMinReserve) ++
    negativeCheck constraints.maxReserve
      (fun _ => .invalidConstraints .negativeMaxReserve) ++
    orderCheck constraints.minReserve constraints.maxReserve ++
    shareCheck constraints.maxShare

/-- All checks of a request, in the order in which they count. -/
def Request.checks (request : Request) : List Check :=
  [⟨decide (request.companies = []), .noCompanies⟩,
    ⟨decide (request.available < 0),
      .negativeCapital request.available⟩] ++
    checksInOrder Company.checks request.companies ++
    checksInOrder StagePolicy.checks request.policies ++
    request.constraints.checks

/-- The fault that is reported is that of the first violated check. -/
theorem reportFirst_eq_error_iff
    {checks : List Check}
    {fault : RequestFault} :
    reportFirst checks = .error fault ↔ IsFirstFault checks fault := by
  unfold reportFirst IsFirstFault
  constructor
  · intro reported
    cases found : checks.find? Check.violated with
    | none =>
        simp [found] at reported
    | some check =>
        obtain ⟨isViolated, earlier, later, inOrder, passed⟩ :=
          List.find?_eq_some_iff_append.mp found
        rw [found] at reported
        injection reported with sameFault
        exact
          ⟨earlier, check, later, inOrder, by simpa using passed,
            isViolated, sameFault⟩
  · rintro ⟨earlier, check, later, inOrder, passed, isViolated, sameFault⟩
    have found : checks.find? Check.violated = some check :=
      List.find?_eq_some_iff_append.mpr
        ⟨isViolated, earlier, later, inOrder, by simpa using passed⟩
    simp only [found, sameFault]

/-- Checks in two groups are made one group after the other. -/
theorem reportFirst_append
    (first second : List Check) :
    reportFirst (first ++ second) =
      (do reportFirst first; reportFirst second) := by
  unfold reportFirst
  rw [List.find?_append]
  cases first.find? Check.violated <;> rfl

/-- The first of several checks is made before the others. -/
theorem reportFirst_cons_cons
    (first second : Check)
    (rest : List Check) :
    reportFirst (first :: second :: rest) =
      (do reportFirst [first]; reportFirst (second :: rest)) :=
  reportFirst_append [first] (second :: rest)

/-- A single refusal is a list of one check. -/
theorem refuseIf_eq_reportFirst
    (condition : Prop)
    [Decidable condition]
    (fault : RequestFault) :
    refuseIf condition fault =
      reportFirst [⟨decide condition, fault⟩] := by
  by_cases holds : condition <;>
    simp [refuseIf, reportFirst, holds]

/-- An amount that may be absent is checked only if it is there. -/
theorem checkNotNegative_eq_reportFirst
    (amount : Option Int)
    (fault : Int → RequestFault) :
    checkNotNegative amount fault =
      reportFirst (negativeCheck amount fault) := by
  cases amount with
  | none => rfl
  | some value => exact refuseIf_eq_reportFirst ..

/-- The order of two reserves is checked only if both are there. -/
theorem checkReserveOrder_eq_reportFirst
    (least greatest : Option Int) :
    checkReserveOrder least greatest =
      reportFirst (orderCheck least greatest) := by
  cases least with
  | none => rfl
  | some _ =>
      cases greatest with
      | none => rfl
      | some _ => exact refuseIf_eq_reportFirst ..

/-- A share that may be absent is checked only if it is there. -/
theorem checkShare_eq_reportFirst
    (share : Option Ratio) :
    checkShare share = reportFirst (shareCheck share) := by
  cases share with
  | none => rfl
  | some _ => exact refuseIf_eq_reportFirst ..

section InOrder

variable
    {α : Type}
    {key : α → String}
    {checksOf : α → List α → List Check}
    {validateItem : α → List String → Except RequestFault Unit}
    {validateItems : List String → List α → Except RequestFault Unit}
    (atEnd : ∀ earlierKeys, validateItems earlierKeys [] = .ok ())
    (atItem :
      ∀ earlierKeys item rest,
        validateItems earlierKeys (item :: rest) =
          (do
            validateItem item earlierKeys
            validateItems (key item :: earlierKeys) rest))
    (validateItem_eq :
      ∀ item earlierKeys earlier,
        (∀ name, name ∈ earlierKeys ↔ name ∈ earlier.map key) →
        validateItem item earlierKeys =
          reportFirst (checksOf item earlier))

include atEnd atItem validateItem_eq

/--
A loop that carries the keys of earlier items reports the first violated check
of the rest, each item checked against all items before it.
-/
theorem validateItems_eq_reportFirst
    (rest earlier : List α)
    {earlierKeys : List String}
    (sameKeys : ∀ name, name ∈ earlierKeys ↔ name ∈ earlier.map key) :
    validateItems earlierKeys rest =
      reportFirst
        ((rest.zipIdx earlier.length).flatMap fun (item, place) =>
          checksOf item ((earlier ++ rest).take place)) := by
  induction rest generalizing earlier earlierKeys with
  | nil =>
      exact atEnd earlierKeys
  | cons item rest inductionHypothesis =>
      have sameKeysAfter :
          ∀ name,
            name ∈ key item :: earlierKeys ↔
              name ∈ (earlier ++ [item]).map key := by
        intro name
        simp [sameKeys name, or_comm]
      have followed :=
        inductionHypothesis (earlier ++ [item]) sameKeysAfter
      rw [List.length_append, List.length_singleton,
        List.append_assoc, List.singleton_append] at followed
      have beforeItem :
          (earlier ++ item :: rest).take earlier.length = earlier :=
        List.take_left
      rw [atItem, validateItem_eq item earlierKeys earlier sameKeys,
        followed, List.zipIdx_cons, List.flatMap_cons,
        reportFirst_append]
      simp only [beforeItem]

/-- With nothing before them, items are checked in the order of the list. -/
theorem validateItems_nil_eq_reportFirst
    (items : List α) :
    validateItems [] items =
      reportFirst (checksInOrder checksOf items) :=
  validateItems_eq_reportFirst atEnd atItem validateItem_eq items []
    (fun _ => Iff.rfl)

end InOrder

/--
A company is checked by its list of checks, its id against those of earlier
companies.
-/
theorem Company.validate_eq_reportFirst
    (company : Company)
    (earlierIds : List String)
    (earlier : List Company)
    (sameIds :
      ∀ id, id ∈ earlierIds ↔ id ∈ earlier.map Company.id) :
    company.validate earlierIds =
      reportFirst (company.checks earlier) := by
  simp only [validate, checks, refuseIf_eq_reportFirst,
    checkNotNegative_eq_reportFirst, sameIds company.id,
    reportFirst_append, reportFirst_cons_cons, bind_assoc,
    Bool.decide_eq_true]

/--
A policy is checked by its list of checks, its stage against those of earlier
policies.
-/
theorem StagePolicy.validate_eq_reportFirst
    (policy : StagePolicy)
    (earlierStages : List String)
    (earlier : List StagePolicy)
    (sameStages :
      ∀ stage,
        stage ∈ earlierStages ↔
          stage ∈ earlier.map StagePolicy.stage) :
    policy.validate earlierStages =
      reportFirst (policy.checks earlier) := by
  simp only [validate, checks, refuseIf_eq_reportFirst,
    sameStages policy.stage, reportFirst_cons_cons,
    Bool.decide_eq_true]

/-- The constraints are checked by their list of checks. -/
theorem Constraints.validate_eq_reportFirst
    (constraints : Constraints) :
    constraints.validate = reportFirst constraints.checks := by
  simp only [validate, checks, checkNotNegative_eq_reportFirst,
    checkReserveOrder_eq_reportFirst, checkShare_eq_reportFirst,
    reportFirst_append, bind_assoc]

/-- Validation reports the first violated check of a request. -/
theorem Request.validate_eq_reportFirst
    (request : Request) :
    request.validate = reportFirst request.checks := by
  have companies :
      validateCompanies [] request.companies =
        reportFirst
          (checksInOrder Company.checks request.companies) :=
    validateItems_nil_eq_reportFirst (fun _ => rfl)
      (fun _ _ _ => rfl) Company.validate_eq_reportFirst _
  have policies :
      validatePolicies [] request.policies =
        reportFirst
          (checksInOrder StagePolicy.checks request.policies) :=
    validateItems_nil_eq_reportFirst (fun _ => rfl)
      (fun _ _ _ => rfl) StagePolicy.validate_eq_reportFirst _
  simp only [validate, checks, companies, policies,
    Constraints.validate_eq_reportFirst, refuseIf_eq_reportFirst,
    reportFirst_append, reportFirst_cons_cons, bind_assoc]

/-- Bounds that are not below zero, in order, with a share above zero and at most one. -/
structure Constraints.WellFormed (constraints : Constraints) : Prop where
  minReserve_nonneg :
    ∀ least, constraints.minReserve = some least → 0 ≤ least
  maxReserve_nonneg :
    ∀ greatest, constraints.maxReserve = some greatest → 0 ≤ greatest
  minReserve_le_maxReserve :
    ∀ least greatest,
      constraints.minReserve = some least →
      constraints.maxReserve = some greatest →
      least ≤ greatest
  maxShare_bounds :
    ∀ share,
      constraints.maxShare = some share →
      0 < share.micros ∧ share.micros ≤ 1000000

/-- A request that violates no check. -/
structure Request.WellFormed (request : Request) : Prop where
  companies_nonempty : request.companies ≠ []
  available_nonneg : 0 ≤ request.available
  id_has_character :
    ∀ company ∈ request.companies,
      ∃ character ∈ company.id.toList,
        Text.isWhiteSpace character = false
  ids_distinct : (request.companies.map Company.id).Nodup
  invested_nonneg :
    ∀ company ∈ request.companies, 0 ≤ company.invested
  hardCap_nonneg :
    ∀ company ∈ request.companies,
      ∀ amount, company.hardCap = some amount → 0 ≤ amount
  stage_has_character :
    ∀ policy ∈ request.policies,
      ∃ character ∈ policy.stage.toList,
        Text.isWhiteSpace character = false
  stages_distinct : (request.policies.map StagePolicy.stage).Nodup
  reserveMultiple_nonneg :
    ∀ policy ∈ request.policies, 0 ≤ policy.reserveMultiple.micros
  priorityWeight_nonneg :
    ∀ policy ∈ request.policies, 0 ≤ policy.priorityWeight.micros
  constraints : request.constraints.WellFormed

/-- Two reserves are accepted exactly if the least does not exceed the greatest. -/
theorem checkReserveOrder_eq_ok_iff
    {least greatest : Option Int} :
    checkReserveOrder least greatest = .ok () ↔
      ∀ low high,
        least = some low → greatest = some high → low ≤ high := by
  cases least <;> cases greatest <;> simp [checkReserveOrder]

/-- A share is accepted exactly if it is positive and no more than one. -/
theorem checkShare_eq_ok_iff
    {share : Option Ratio} :
    checkShare share = .ok () ↔
      ∀ ratio,
        share = some ratio →
        0 < ratio.micros ∧ ratio.micros ≤ 1000000 := by
  cases share with
  | none =>
      simp [checkShare]
  | some ratio =>
      have scale : Ratio.scale = 1000000 := rfl
      simp [checkShare, scale]

/-- The constraints are accepted exactly if they are well formed. -/
theorem Constraints.validate_eq_ok_iff
    {constraints : Constraints} :
    constraints.validate = .ok () ↔ constraints.WellFormed := by
  simp only [validate, andThen_eq_ok_iff,
    checkNotNegative_eq_ok_iff, checkReserveOrder_eq_ok_iff,
    checkShare_eq_ok_iff]
  constructor
  · rintro ⟨least, greatest, ordered, share⟩
    exact ⟨least, greatest, ordered, share⟩
  · rintro ⟨least, greatest, ordered, share⟩
    exact ⟨least, greatest, ordered, share⟩

/-- A text is not blank exactly if some character of it is no white space. -/
theorem not_isBlank_iff
    {text : String} :
    ¬Text.isBlank text = true ↔
      ∃ character ∈ text.toList,
        Text.isWhiteSpace character = false := by
  simp [Text.isBlank_eq_true_iff]

/-- A valid request is a well-formed one. -/
theorem Request.validate_eq_ok_iff_wellFormed
    {request : Request} :
    request.validate = .ok () ↔ request.WellFormed := by
  rw [validate_eq_ok_iff, validateCompanies_eq_ok_iff,
    validatePolicies_eq_ok_iff, Constraints.validate_eq_ok_iff]
  constructor
  · rintro ⟨nonempty, available, companies, policies, constraints⟩
    exact {
      companies_nonempty := nonempty
      available_nonneg := available
      id_has_character := fun company member =>
        not_isBlank_iff.mp
          (companies.accepted company member).id_not_blank
      ids_distinct := companies.distinct
      invested_nonneg := fun company member =>
        (companies.accepted company member).invested_nonneg
      hardCap_nonneg := fun company member =>
        (companies.accepted company member).hardCap_nonneg
      stage_has_character := fun policy member =>
        not_isBlank_iff.mp
          (policies.accepted policy member).stage_not_blank
      stages_distinct := policies.distinct
      reserveMultiple_nonneg := fun policy member =>
        (policies.accepted policy member).reserveMultiple_nonneg
      priorityWeight_nonneg := fun policy member =>
        (policies.accepted policy member).priorityWeight_nonneg
      constraints := constraints
    }
  · intro wellFormed
    refine
      ⟨wellFormed.companies_nonempty, wellFormed.available_nonneg,
        ⟨?_, fun _ _ => List.not_mem_nil, wellFormed.ids_distinct⟩,
        ⟨?_, fun _ _ => List.not_mem_nil, wellFormed.stages_distinct⟩,
        wellFormed.constraints⟩
    · intro company member
      exact
        ⟨not_isBlank_iff.mpr (wellFormed.id_has_character company member),
          wellFormed.invested_nonneg company member,
          wellFormed.hardCap_nonneg company member⟩
    · intro policy member
      exact
        ⟨not_isBlank_iff.mpr
            (wellFormed.stage_has_character policy member),
          wellFormed.reserveMultiple_nonneg policy member,
          wellFormed.priorityWeight_nonneg policy member⟩

/--
A request is valid exactly if it is well formed, and is turned down exactly
with the fault of the first of its checks that it violates. Every strategy has
a plan for exactly the well-formed requests, and turns down all others with
the fault of validation.
-/
theorem validation_is_exact_and_shared
    (request : Request) :
    (request.validate = .ok () ↔ request.WellFormed) ∧
      (∀ fault,
        request.validate = .error fault ↔
          IsFirstFault request.checks fault) ∧
      ∀ strategy : Strategy,
        ((∃ plan, strategy.plan request = .ok plan) ↔
          request.WellFormed) ∧
          ∀ fault,
            strategy.plan request = .error fault ↔
              request.validate = .error fault := by
  refine ⟨Request.validate_eq_ok_iff_wellFormed, ?_, ?_⟩
  · intro fault
    rw [request.validate_eq_reportFirst, reportFirst_eq_error_iff]
  · intro strategy
    refine ⟨?_, fun fault => Strategy.plan_eq_error_iff⟩
    rw [← Request.validate_eq_ok_iff_wellFormed]
    constructor
    · rintro ⟨plan, planned⟩
      exact (Strategy.plan_eq_ok_iff.mp planned).1
    · intro valid
      exact
        ⟨strategy.planValid request,
          Strategy.plan_eq_ok_iff.mpr ⟨valid, rfl⟩⟩

end FollowOn

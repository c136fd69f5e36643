import FollowOn.Proofs.FinalLedger
import FollowOn.Proofs.Ranking
import Mathlib.Data.List.Nodup

namespace FollowOn

/-!
# Looking up by key

In a list whose keys are distinct, a look-up finds the item that has the key.
So the policy of a stage does not depend on the order in which policies are
listed, and a plan for a valid request finds for each company the one
allocation that was made for it, with the company's own cap.
-/

/-- With distinct keys a search by key finds the only item that has it. -/
theorem find?_key_eq_some_iff
    {α : Type}
    {key : α → String}
    {items : List α}
    (distinct : (items.map key).Nodup)
    {name : String}
    {item : α} :
    items.find? (fun other => key other == name) = some item ↔
      item ∈ items ∧ key item = name := by
  constructor
  · intro found
    have sameKey := List.find?_some found
    exact ⟨List.mem_of_find?_eq_some found, by simpa using sameKey⟩
  · rintro ⟨member, sameKey⟩
    cases found : items.find? (fun other => key other == name) with
    | none =>
        have otherKey := List.find?_eq_none.mp found item member
        simp [sameKey] at otherKey
    | some other =>
        have otherKey := List.find?_some found
        have isItem : other = item :=
          List.inj_on_of_nodup_map distinct
            (List.mem_of_find?_eq_some found) member
            (by simpa [sameKey] using otherKey)
        rw [isItem]

/-- The policy of a stage does not depend on the order of the policies. -/
theorem policyFor?_eq_of_perm
    {policies others : List StagePolicy}
    (distinct : (policies.map StagePolicy.stage).Nodup)
    (samePolicies : policies.Perm others)
    (stage : String) :
    policyFor? policies stage = policyFor? others stage := by
  have distinctOthers : (others.map StagePolicy.stage).Nodup :=
    ((samePolicies.map StagePolicy.stage).nodup_iff).mp distinct
  apply Option.ext
  intro policy
  rw [policyFor?_eq_find?, policyFor?_eq_find?,
    find?_key_eq_some_iff distinct,
    find?_key_eq_some_iff distinctOthers, samePolicies.mem_iff]

/-- An allocation under the id of a company, with what its cap came to. -/
structure Allocation.IsOf
    (request : Request)
    (company : Company)
    (allocation : Allocation) : Prop where
  companyId_eq : allocation.companyId = company.id
  cap_eq : allocation.cap = (request.capOf company).amount
  policyDefaulted_eq :
    allocation.policyDefaulted =
      (request.capOf company).policyDefaulted

/-- In a plan for a request, the allocation found for a company is its own. -/
structure Plan.Reserves
    (plan : Plan)
    (request : Request)
    (company : Company)
    (allocation : Allocation) : Prop where
  found : plan.allocationFor? company.id = some allocation
  companyId_eq : allocation.companyId = company.id
  cap_eq : allocation.cap = (request.capOf company).amount

/-- The amount that is looked up is the one of the record. -/
theorem Plan.Reserves.plannedFor_eq
    {plan : Plan}
    {request : Request}
    {company : Company}
    {allocation : Allocation}
    (reserves : plan.Reserves request company allocation) :
    plan.plannedFor company.id = allocation.planned := by
  rw [Plan.plannedFor, reserves.found]
  rfl

/-- Two items in order are matched with two items that keep to a relation along the list. -/
theorem exists_pair_of_forall₂
    {α β : Type}
    {related : α → β → Prop}
    {order : α → α → Prop}
    {along : β → β → Prop}
    {left : List α}
    {right : List β}
    (lists : List.Forall₂ related left right)
    (ordered : left.Pairwise order)
    (asymm : ∀ first second, order first second → ¬order second first)
    (pairs : right.Pairwise along)
    {first second : α}
    (firstMember : first ∈ left)
    (secondMember : second ∈ left)
    (inOrder : order first second) :
    ∃ firstImage ∈ right, ∃ secondImage ∈ right,
      related first firstImage ∧
        related second secondImage ∧
        along firstImage secondImage := by
  induction lists with
  | nil =>
      cases firstMember
  | @cons head headImage rest restImage headRelated restRelated
      inductionHypothesis =>
      obtain ⟨headOrder, restOrdered⟩ := List.pairwise_cons.mp ordered
      obtain ⟨headAlong, restPairs⟩ := List.pairwise_cons.mp pairs
      rcases List.mem_cons.mp secondMember with isHead | secondInRest
      · -- Nothing stands before the head, neither itself nor the rest.
        subst isHead
        rcases List.mem_cons.mp firstMember with isHead | firstInRest
        · subst isHead
          exact (asymm _ _ inOrder inOrder).elim
        · exact (asymm _ _ inOrder (headOrder first firstInRest)).elim
      · rcases List.mem_cons.mp firstMember with isHead | firstInRest
        · subst isHead
          obtain ⟨secondImage, inImage, secondRelated⟩ :=
            exists_mem_left_of_forall₂ restRelated.flip secondInRest
          exact ⟨headImage, List.mem_cons_self, secondImage,
            List.mem_cons_of_mem _ inImage, headRelated, secondRelated,
            headAlong secondImage inImage⟩
        · obtain ⟨firstImage, firstInImage, secondImage,
              secondInImage, facts⟩ :=
            inductionHypothesis restOrdered restPairs
              firstInRest secondInRest
          exact ⟨firstImage, List.mem_cons_of_mem _ firstInImage,
            secondImage, List.mem_cons_of_mem _ secondInImage, facts⟩

namespace Strategy

variable
    {request : Request}

/-- A plan has one allocation for each company, in ranking order: the company's own. -/
theorem forall₂_isOf_allocations
    (strategy : Strategy)
    (request : Request) :
    List.Forall₂
      (fun company allocation =>
        Allocation.IsOf request company allocation)
      (ranked request.companies)
      (strategy.planValid request).allocations := by
  change List.Forall₂ _ _ (strategy.finalLedger request).allocations
  rw [Ledger.allocations, List.forall₂_map_right_iff]
  refine (forall₂_terms_finalLedger strategy request).imp ?_
  rintro company account ⟨-, terms⟩
  injection terms with sameId sameCap _ sameDefaulted
  exact
    ⟨sameId, sameCap.trans (Request.cap_opened_capOf request company),
      sameDefaulted⟩

/-- The records of a plan stand in the order of the ranked companies. -/
theorem forall₂_allocations
    (strategy : Strategy)
    (request : Request) :
    List.Forall₂
      (fun company allocation =>
        allocation.companyId = company.id ∧
          allocation.cap = (request.capOf company).amount)
      (ranked request.companies)
      (strategy.planValid request).allocations :=
  (forall₂_isOf_allocations strategy request).imp
    fun _ _ isOf => ⟨isOf.companyId_eq, isOf.cap_eq⟩

/-- The ids of a plan are the ranked ids. -/
theorem map_companyId_planValid
    (strategy : Strategy)
    (request : Request) :
    (strategy.planValid request).allocations.map
        Allocation.companyId =
      rankedIds request.companies := by
  rw [rankedIds, ← List.forall₂_eq_eq_eq,
    List.forall₂_map_left_iff, List.forall₂_map_right_iff]
  exact ((forall₂_allocations strategy request).imp
    (fun _ _ facts => facts.1)).flip

/-- Under an id a plan for a valid request finds the one allocation that has it. -/
theorem allocationFor?_eq_some_iff
    (valid : request.validate = .ok ())
    {strategy : Strategy}
    {id : String}
    {allocation : Allocation} :
    (strategy.planValid request).allocationFor? id = some allocation ↔
      allocation ∈ (strategy.planValid request).allocations ∧
        allocation.companyId = id := by
  have distinct :
      ((strategy.planValid request).allocations.map
        Allocation.companyId).Nodup := by
    rw [map_companyId_planValid]
    exact nodup_ids_ranked (Request.distinct_ids_of_validate valid)
  exact find?_key_eq_some_iff distinct

/-- The allocation that was made for a company is found under its id. -/
theorem allocationFor?_of_mem
    (valid : request.validate = .ok ())
    {strategy : Strategy}
    {company : Company}
    {allocation : Allocation}
    (member : allocation ∈ (strategy.planValid request).allocations)
    (sameId : allocation.companyId = company.id) :
    (strategy.planValid request).allocationFor? company.id =
      some allocation :=
  (allocationFor?_eq_some_iff valid).mpr ⟨member, sameId⟩

/-- A plan finds nothing exactly under an id that no company has. -/
theorem allocationFor?_eq_none_iff
    {strategy : Strategy}
    {id : String} :
    (strategy.planValid request).allocationFor? id = none ↔
      ∀ company ∈ request.companies, company.id ≠ id := by
  have ids := map_companyId_planValid strategy request
  have sameIds :
      id ∈ (strategy.planValid request).allocations.map
          Allocation.companyId ↔
        id ∈ request.companies.map Company.id := by
    rw [ids, rankedIds]
    exact ((ranked_perm request.companies).map Company.id).mem_iff
  rw [List.mem_map, List.mem_map] at sameIds
  simp only [Plan.allocationFor?, List.find?_eq_none, beq_iff_eq]
  constructor
  · intro notFound company member sameId
    obtain ⟨allocation, inPlan, hasId⟩ :=
      sameIds.mpr ⟨company, member, sameId⟩
    exact notFound allocation inPlan hasId
  · intro noCompany allocation inPlan hasId
    obtain ⟨company, member, sameId⟩ :=
      sameIds.mp ⟨allocation, inPlan, hasId⟩
    exact noCompany company member sameId

/-- The record with the id of a company is the only one of it. -/
theorem reserves_of_mem
    (valid : request.validate = .ok ())
    {strategy : Strategy}
    {company : Company}
    {allocation : Allocation}
    (member : allocation ∈ (strategy.planValid request).allocations)
    (sameId : allocation.companyId = company.id)
    (sameCap : allocation.cap = (request.capOf company).amount) :
    (strategy.planValid request).Reserves request company
      allocation where
  found := allocationFor?_of_mem valid member sameId
  companyId_eq := sameId
  cap_eq := sameCap

/-- A plan reserves for each company, in ranking order, what its own allocation holds. -/
theorem forall₂_reserves
    (valid : request.validate = .ok ())
    (strategy : Strategy) :
    List.Forall₂ ((strategy.planValid request).Reserves request)
      (ranked request.companies)
      (strategy.planValid request).allocations := by
  have withMembers :=
    (List.forall₂_and_left
        (strategy.planValid request).allocations _).mpr
      ⟨fun _ member => member,
        (forall₂_allocations strategy request).flip⟩
  refine withMembers.flip.imp ?_
  rintro company allocation ⟨inPlan, sameId, sameCap⟩
  exact reserves_of_mem valid inPlan sameId sameCap

/-- Every company of a valid request has its record. -/
theorem exists_reserves
    (valid : request.validate = .ok ())
    (strategy : Strategy)
    {company : Company}
    (member : company ∈ request.companies) :
    ∃ allocation ∈ (strategy.planValid request).allocations,
      (strategy.planValid request).Reserves request company
        allocation := by
  have isRanked : company ∈ ranked request.companies :=
    (ranked_perm request.companies).mem_iff.mpr member
  exact exists_mem_left_of_forall₂
    (forall₂_reserves valid strategy).flip isRanked

end Strategy

end FollowOn

import FollowOn.Fingerprint
import FollowOn.Proofs.Lookup
import FollowOn.Proofs.Relevance
import Mathlib.Data.List.Sort

namespace FollowOn

/-!
# The order in which a request is given

A request is reordered by listing its companies and its policies in another
order. Since a valid request has distinct ids and distinct stages, nothing that
a plan depends on changes: companies are ranked the same, and each finds the
policy of its stage. The canonical form of a request stands for all its
orders, and for nothing else.
-/

section SortByKey

variable
    {α : Type}
    (key : α → String)

/-- Sorting by a key puts the keys in order. -/
theorem pairwise_mergeSort_key
    (items : List α) :
    (items.mergeSort fun left right =>
        decide (key left ≤ key right)).Pairwise
      fun left right => key left ≤ key right :=
  List.pairwise_mergeSort' (Order.Preimage key (· ≤ ·)) items

/-- Sorting by distinct keys forgets the order in which the items were given. -/
theorem mergeSort_key_eq_of_perm
    {items others : List α}
    (distinct : (items.map key).Nodup)
    (sameItems : items.Perm others) :
    (items.mergeSort fun left right =>
        decide (key left ≤ key right)) =
      others.mergeSort fun left right =>
        decide (key left ≤ key right) := by
  refine List.Perm.eq_of_pairwise ?_
    (pairwise_mergeSort_key key items)
    (pairwise_mergeSort_key key others) ?_
  · intro left right leftMember rightMember before after
    exact List.inj_on_of_nodup_map distinct
      (List.mem_mergeSort.mp leftMember)
      (sameItems.mem_iff.mpr (List.mem_mergeSort.mp rightMember))
      (le_antisymm before after)
  · exact ((List.mergeSort_perm items _).trans sameItems).trans
      (List.mergeSort_perm others _).symm

/-- Sorting twice by one key is sorting once. -/
theorem mergeSort_key_mergeSort
    (items : List α) :
    ((items.mergeSort fun left right =>
        decide (key left ≤ key right)).mergeSort
          fun left right => decide (key left ≤ key right)) =
      items.mergeSort fun left right =>
        decide (key left ≤ key right) := by
  apply List.mergeSort_of_pairwise
  simpa using pairwise_mergeSort_key key items

end SortByKey

namespace Request

variable
    {request other : Request}

/-- Two requests list the same companies and policies, in any order. -/
structure Reorders (request other : Request) : Prop where
  companies_perm : request.companies.Perm other.companies
  policies_perm : request.policies.Perm other.policies
  available_eq : request.available = other.available
  constraints_eq : request.constraints = other.constraints

/-- Reordering can be undone. -/
theorem Reorders.symm
    (reorders : request.Reorders other) :
    other.Reorders request where
  companies_perm := reorders.companies_perm.symm
  policies_perm := reorders.policies_perm.symm
  available_eq := reorders.available_eq.symm
  constraints_eq := reorders.constraints_eq.symm

/-- Reordering twice is reordering. -/
theorem Reorders.trans
    {third : Request}
    (first : request.Reorders other)
    (second : other.Reorders third) :
    request.Reorders third where
  companies_perm := first.companies_perm.trans second.companies_perm
  policies_perm := first.policies_perm.trans second.policies_perm
  available_eq := first.available_eq.trans second.available_eq
  constraints_eq := first.constraints_eq.trans second.constraints_eq

/-- Listing the companies backwards is a reordering. -/
theorem reorders_reverse
    (request : Request) :
    request.Reorders
      { request with companies := request.companies.reverse } where
  companies_perm := (List.reverse_perm _).symm
  policies_perm := .refl _
  available_eq := rfl
  constraints_eq := rfl

/-- The canonical form is a reordering. -/
theorem canonical_reorders
    (request : Request) :
    request.canonical.Reorders request where
  companies_perm := companies_canonical_perm request
  policies_perm := policies_canonical_perm request
  available_eq := rfl
  constraints_eq := rfl

/-- Requests with one canonical form reorder each other. -/
theorem reorders_of_canonical_eq
    (same : request.canonical = other.canonical) :
    request.Reorders other :=
  (canonical_reorders request).symm.trans
    (same ▸ canonical_reorders other)

/-- The canonical form is its own canonical form. -/
theorem canonical_canonical
    (request : Request) :
    request.canonical.canonical = request.canonical := by
  simp only [canonical, mergeSort_key_mergeSort]

/-- Validation does not depend on the order of companies and policies. -/
theorem Reorders.validate
    (reorders : request.Reorders other)
    (valid : request.validate = .ok ()) :
    other.validate = .ok () := by
  rw [validate_eq_ok_iff, validateCompanies_eq_ok_iff,
    validatePolicies_eq_ok_iff] at valid ⊢
  obtain ⟨someCompany, available, companies, policies, constraints⟩ :=
    valid
  refine ⟨?_, ?_, companies.perm reorders.companies_perm,
    policies.perm reorders.policies_perm, ?_⟩
  · intro noCompany
    have sameCompanies := reorders.companies_perm
    rw [noCompany] at sameCompanies
    exact someCompany sameCompanies.eq_nil
  · rw [← reorders.available_eq]
    exact available
  · rw [← reorders.constraints_eq]
    exact constraints

section Valid

variable
    (reorders : request.Reorders other)
    (valid : request.validate = .ok ())

include reorders valid

/-- Requests that differ in order have one canonical form. -/
theorem Reorders.canonical_eq :
    request.canonical = other.canonical := by
  simp only [canonical]
  rw [mergeSort_key_eq_of_perm Company.id
      (distinct_ids_of_validate valid) reorders.companies_perm,
    mergeSort_key_eq_of_perm StagePolicy.stage
      (distinct_stages_of_validate valid) reorders.policies_perm,
    reorders.available_eq, reorders.constraints_eq]

/-- Requests that differ in order rank their companies alike. -/
theorem Reorders.ranked_eq :
    ranked request.companies = ranked other.companies :=
  ranked_eq_of_perm (distinct_ids_of_validate valid)
    reorders.companies_perm

/-- A stage has the same policy however a request is ordered. -/
theorem Reorders.policyFor?_eq
    (stage : String) :
    policyFor? request.policies stage =
      policyFor? other.policies stage :=
  policyFor?_eq_of_perm (distinct_stages_of_validate valid)
    reorders.policies_perm stage

/-- Requests that differ in order agree in all that plans depend on. -/
theorem Reorders.agreesWith :
    request.AgreesWith other where
  available_eq := reorders.available_eq
  constraints_eq := reorders.constraints_eq
  companies_agree := by
    rw [← reorders.ranked_eq valid]
    exact List.forall₂_same.mpr fun company _ => .refl company
  multiples_eq _ _ := by
    rw [reorders.policyFor?_eq valid]

/-- Requests that differ in order weigh their companies alike. -/
theorem Reorders.weighsLike :
    request.WeighsLike other := by
  intro company _
  rw [reorders.policyFor?_eq valid]

/-- A strategy has the same plan for all orders of a valid request. -/
theorem Reorders.planValid_eq
    (strategy : Strategy) :
    strategy.planValid request = strategy.planValid other :=
  Strategy.planValid_eq_of_weighsLike (reorders.agreesWith valid)
    (reorders.weighsLike valid) strategy

end Valid

end Request

/-- Whoever reorders a valid request has its plan. -/
theorem Request.Reorders.exists_plan
    {request other : Request}
    (reorders : request.Reorders other)
    (valid : request.validate = .ok ())
    (strategy : Strategy) :
    ∃ plan,
      strategy.plan request = .ok plan ∧
        strategy.plan other = .ok plan := by
  refine
    ⟨strategy.planValid request,
      Strategy.plan_of_valid valid strategy, ?_⟩
  rw [reorders.planValid_eq valid]
  exact Strategy.plan_of_valid (reorders.validate valid) strategy

namespace Strategy

/--
Whoever reorders a valid request has a valid request with the same canonical
form and, from every strategy, the same plan. Valid requests with the same
canonical form reorder each other, and a canonical form is its own.
-/
theorem plan_independent_of_order :
    (∀ request other : Request,
      request.validate = .ok () →
      request.Reorders other →
      other.validate = .ok () ∧
        request.canonical = other.canonical ∧
        ∀ strategy : Strategy,
          ∃ plan,
            strategy.plan request = .ok plan ∧
              strategy.plan other = .ok plan) ∧
      (∀ request other : Request,
        request.validate = .ok () →
        other.validate = .ok () →
        request.canonical = other.canonical →
        request.Reorders other) ∧
      ∀ request : Request,
        request.canonical.canonical = request.canonical := by
  refine ⟨?_, ?_, Request.canonical_canonical⟩
  · intro request other valid reorders
    exact
      ⟨reorders.validate valid, reorders.canonical_eq valid,
        reorders.exists_plan valid⟩
  · intro request other _ _ same
    exact Request.reorders_of_canonical_eq same

/-- Three seed companies can be given from last to first. -/
theorem plan_threeSeeds_independent_of_order :
    Request.validate
        { Request.threeSeeds with
          companies := Request.threeSeeds.companies.reverse } =
        .ok () ∧
      Request.threeSeeds.companies ≠
        Request.threeSeeds.companies.reverse ∧
      ∃ plan,
        Strategy.standard.plan Request.threeSeeds = .ok plan ∧
          Strategy.standard.plan
              { Request.threeSeeds with
                companies := Request.threeSeeds.companies.reverse } =
            .ok plan := by
  obtain ⟨valid, -, samePlan⟩ :=
    plan_independent_of_order.1 _ _ Request.validate_threeSeeds
      (Request.reorders_reverse _)
  exact ⟨valid, by decide, samePlan .standard⟩

end Strategy

end FollowOn

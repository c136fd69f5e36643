import FollowOn.Ranking
import FollowOn.Validation

namespace FollowOn

/-!
# What validation checks

A request is valid exactly if each of its checks passes. A list passes if each
of its items is acceptable by itself and no two items have the same key, so the
order of its items does not matter. The portfolio of `Request.threeSeeds` is
one of the valid ones; it is given in ranking order.
-/

/-- Two checks pass one after the other exactly if each passes. -/
theorem andThen_eq_ok_iff
    {first second : Except RequestFault Unit} :
    (do first; second) = .ok () ↔
      first = .ok () ∧ second = .ok () := by
  cases first <;> simp [bind, Except.bind]

/--
An amount that may be absent is accepted exactly if it is not below zero where
it is there.
-/
theorem checkNotNegative_eq_ok_iff
    {amount : Option Int}
    {fault : Int → RequestFault} :
    checkNotNegative amount fault = .ok () ↔
      ∀ value, amount = some value → 0 ≤ value := by
  cases amount <;> simp [checkNotNegative]

section AllFresh

variable
    {α : Type}
    {key : α → String}
    {accepted : α → Prop}
    {earlier : List String}
    {first : α}
    {items others : List α}

/-- Every item is accepted, and its key is neither an earlier one nor that of another item. -/
structure AllFresh
    (key : α → String)
    (accepted : α → Prop)
    (earlier : List String)
    (items : List α) : Prop where
  accepted : ∀ item ∈ items, accepted item
  fresh : ∀ item ∈ items, key item ∉ earlier
  distinct : (items.map key).Nodup

/-- Where there are no items, there is none to refuse. -/
theorem AllFresh.nil :
    AllFresh key accepted earlier [] where
  accepted _ member := (List.not_mem_nil member).elim
  fresh _ member := (List.not_mem_nil member).elim
  distinct := List.nodup_nil

/-- Items are fresh one by one, each beside all those before it. -/
theorem allFresh_cons_iff :
    AllFresh key accepted earlier (first :: items) ↔
      (accepted first ∧ key first ∉ earlier) ∧
        AllFresh key accepted (key first :: earlier) items := by
  constructor
  · rintro ⟨allAccepted, fresh, distinct⟩
    simp only [List.forall_mem_cons] at allAccepted fresh
    rw [List.map_cons, List.nodup_cons] at distinct
    refine ⟨⟨allAccepted.1, fresh.1⟩, allAccepted.2, ?_, distinct.2⟩
    intro item member isKnown
    rcases List.mem_cons.mp isKnown with sameKey | isEarlier
    · exact distinct.1 (sameKey ▸ List.mem_map_of_mem member)
    · exact fresh.2 item member isEarlier
  · rintro ⟨⟨firstAccepted, firstFresh⟩, allAccepted, fresh, distinct⟩
    simp only [List.mem_cons, not_or] at fresh
    refine
      ⟨List.forall_mem_cons.mpr ⟨firstAccepted, allAccepted⟩,
        List.forall_mem_cons.mpr
          ⟨firstFresh, fun item member => (fresh item member).2⟩, ?_⟩
    rw [List.map_cons, List.nodup_cons]
    refine ⟨?_, distinct⟩
    intro repeated
    obtain ⟨item, member, sameKey⟩ := List.mem_map.mp repeated
    exact (fresh item member).1 sameKey

/-- Whether all items are fresh does not depend on their order. -/
theorem AllFresh.perm
    (allFresh : AllFresh key accepted earlier items)
    (sameItems : items.Perm others) :
    AllFresh key accepted earlier others where
  accepted item member :=
    allFresh.accepted item (sameItems.mem_iff.mpr member)
  fresh item member :=
    allFresh.fresh item (sameItems.mem_iff.mpr member)
  distinct := ((sameItems.map key).nodup_iff).mp allFresh.distinct

end AllFresh

/-- A company that passes all checks that concern it alone. -/
structure Company.Acceptable (company : Company) : Prop where
  id_not_blank : ¬Text.isBlank company.id = true
  invested_nonneg : 0 ≤ company.invested
  hardCap_nonneg :
    ∀ amount, company.hardCap = some amount → 0 ≤ amount

/-- A company passes exactly if it is acceptable and its id is new. -/
theorem Company.validate_eq_ok_iff
    {company : Company}
    {earlierIds : List String} :
    company.validate earlierIds = .ok () ↔
      company.Acceptable ∧ company.id ∉ earlierIds := by
  simp only [Company.validate, andThen_eq_ok_iff,
    refuseIf_eq_ok_iff, checkNotNegative_eq_ok_iff, Int.not_lt]
  constructor
  · rintro ⟨notBlank, isNew, invested, hardCap⟩
    exact ⟨⟨notBlank, invested, hardCap⟩, isNew⟩
  · rintro ⟨⟨notBlank, invested, hardCap⟩, isNew⟩
    exact ⟨notBlank, isNew, invested, hardCap⟩

/-- Companies pass exactly if each is acceptable and no id occurs twice. -/
theorem validateCompanies_eq_ok_iff
    {earlierIds : List String}
    {companies : List Company} :
    validateCompanies earlierIds companies = .ok () ↔
      AllFresh Company.id Company.Acceptable earlierIds
        companies := by
  induction companies generalizing earlierIds with
  | nil =>
      exact ⟨fun _ => .nil, fun _ => rfl⟩
  | cons company rest inductionHypothesis =>
      rw [validateCompanies, andThen_eq_ok_iff,
        Company.validate_eq_ok_iff, inductionHypothesis,
        allFresh_cons_iff]

/-- A policy that passes all checks that concern it alone. -/
structure StagePolicy.Acceptable (policy : StagePolicy) : Prop where
  stage_not_blank : ¬Text.isBlank policy.stage = true
  reserveMultiple_nonneg : 0 ≤ policy.reserveMultiple.micros
  priorityWeight_nonneg : 0 ≤ policy.priorityWeight.micros

/-- A policy passes exactly if it is acceptable and its stage is new. -/
theorem StagePolicy.validate_eq_ok_iff
    {policy : StagePolicy}
    {earlierStages : List String} :
    policy.validate earlierStages = .ok () ↔
      policy.Acceptable ∧ policy.stage ∉ earlierStages := by
  simp only [StagePolicy.validate, andThen_eq_ok_iff,
    refuseIf_eq_ok_iff, Int.not_lt]
  constructor
  · rintro ⟨notBlank, isNew, multiple, weight⟩
    exact ⟨⟨notBlank, multiple, weight⟩, isNew⟩
  · rintro ⟨⟨notBlank, multiple, weight⟩, isNew⟩
    exact ⟨notBlank, isNew, multiple, weight⟩

/-- Policies pass exactly if each is acceptable and no stage occurs twice. -/
theorem validatePolicies_eq_ok_iff
    {earlierStages : List String}
    {policies : List StagePolicy} :
    validatePolicies earlierStages policies = .ok () ↔
      AllFresh StagePolicy.stage StagePolicy.Acceptable
        earlierStages policies := by
  induction policies generalizing earlierStages with
  | nil =>
      exact ⟨fun _ => .nil, fun _ => rfl⟩
  | cons policy rest inductionHypothesis =>
      rw [validatePolicies, andThen_eq_ok_iff,
        StagePolicy.validate_eq_ok_iff, inductionHypothesis,
        allFresh_cons_iff]

/-- Companies that are given in ranking order stay in it. -/
theorem ranked_of_pairwise
    {companies : List Company}
    (inOrder :
      companies.zipIdx.Pairwise fun left right =>
        Placed.precedes left right = true) :
    ranked companies = companies := by
  rw [ranked, rankPlaced, List.mergeSort_of_pairwise inOrder]
  exact List.zipIdx_map_fst 0 companies

namespace Request

/-- A request is valid exactly if each part of it is. -/
theorem validate_eq_ok_iff
    {request : Request} :
    request.validate = .ok () ↔
      request.companies ≠ [] ∧
        0 ≤ request.available ∧
        validateCompanies [] request.companies = .ok () ∧
        validatePolicies [] request.policies = .ok () ∧
        request.constraints.validate = .ok () := by
  simp only [Request.validate, andThen_eq_ok_iff,
    refuseIf_eq_ok_iff, ne_eq, Int.not_lt]

/-- A valid request does not have less than nothing to plan. -/
theorem available_nonneg_of_validate
    {request : Request}
    (valid : request.validate = .ok ()) :
    0 ≤ request.available :=
  (validate_eq_ok_iff.mp valid).2.1

/-- The companies of a valid request have distinct ids. -/
theorem distinct_ids_of_validate
    {request : Request}
    (valid : request.validate = .ok ()) :
    (request.companies.map Company.id).Nodup :=
  (validateCompanies_eq_ok_iff.mp
    (validate_eq_ok_iff.mp valid).2.2.1).distinct

/-- The policies of a valid request are of distinct stages. -/
theorem distinct_stages_of_validate
    {request : Request}
    (valid : request.validate = .ok ()) :
    (request.policies.map StagePolicy.stage).Nodup :=
  (validatePolicies_eq_ok_iff.mp
    (validate_eq_ok_iff.mp valid).2.2.2.1).distinct

/--
Three seed companies, the second of them small, with less capital than they
could take and a least first check.
-/
def threeSeeds : Request where
  companies :=
    [⟨"a", "Alpha", "seed", 1000, ⟨5000000⟩, none⟩,
      ⟨"b", "Beta", "seed", 100, ⟨4000000⟩, none⟩,
      ⟨"c", "Gamma", "growth", 1000, ⟨3000000⟩, some 800⟩]
  available := 900
  policies := [⟨"seed", Ratio.one, Ratio.one⟩]
  constraints := { Constraints.none with minReserve := some 50 }

/-- The three companies of the examples form a valid request. -/
theorem validate_threeSeeds :
    threeSeeds.validate = .ok () := by
  rfl

/-- The three companies of the examples are listed as they are ranked. -/
theorem ranked_threeSeeds :
    ranked threeSeeds.companies = threeSeeds.companies :=
  ranked_of_pairwise (by decide)

end Request

end FollowOn

import FollowOn.Proofs.OrderIndependence
import FollowOn.Proofs.Schema.Portfolio
import FollowOn.Proofs.Text.Bytes

namespace FollowOn

/-!
# What a fingerprint stands for

Requests with the same canonical bytes list the same companies and policies
under the same constraints, up to ratios that are written alike. Below
`2 ^ 33` no two ratios are, so requests with such ratios have the same plan
from every strategy if their canonical bytes are the same. From there on two
ratios can be written alike, and then the bytes do not tell requests apart
that have different plans.
-/

section Related

variable
    {α : Type}
    {related : α → α → Prop}

/-- Values that may be absent are equal if related values are. -/
theorem eq_of_optionRel
    {first second : Option α}
    (areRelated : Option.Rel related first second)
    (eq_of_related :
      ∀ value, first = some value →
        ∀ other, related value other → value = other) :
    first = second := by
  cases areRelated with
  | none => rfl
  | some valuesRelated =>
      exact congrArg some (eq_of_related _ rfl _ valuesRelated)

/-- Lists are equal if items related at each place are. -/
theorem eq_of_forall₂
    {items others : List α}
    (areRelated : List.Forall₂ related items others)
    (eq_of_related :
      ∀ item ∈ items, ∀ other, related item other → item = other) :
    items = others := by
  induction areRelated with
  | nil => rfl
  | cons firstRelated _ inductionHypothesis =>
      simp only [List.forall_mem_cons] at eq_of_related
      rw [eq_of_related.1 _ firstRelated,
        inductionHypothesis eq_of_related.2]

end Related

/-- A company is told by its text if its exit multiple is below `2 ^ 33`. -/
theorem Company.WrittenLike.eq_of_isResolved
    {first second : Company}
    (alike : first.WrittenLike second)
    (resolved : first.exitMultiple.IsResolved) :
    first = second := by
  have sameMultiple :=
    resolved.eq_of_toBinary64_eq alike.exitMultiple_like
  cases first
  cases second
  rw [Company.mk.injEq]
  exact
    ⟨alike.id_eq, alike.name_eq, alike.stage_eq, alike.invested_eq,
      sameMultiple, alike.hardCap_eq⟩

/-- A policy is told by its text if its ratios are below `2 ^ 33`. -/
theorem StagePolicy.WrittenLike.eq_of_isResolved
    {first second : StagePolicy}
    (alike : first.WrittenLike second)
    (multiple : first.reserveMultiple.IsResolved)
    (weight : first.priorityWeight.IsResolved) :
    first = second := by
  have sameMultiple :=
    multiple.eq_of_toBinary64_eq alike.reserveMultiple_like
  have sameWeight :=
    weight.eq_of_toBinary64_eq alike.priorityWeight_like
  cases first
  cases second
  rw [StagePolicy.mk.injEq]
  exact ⟨alike.stage_eq, sameMultiple, sameWeight⟩

/-- Validation keeps the greatest share far below `2 ^ 33`. -/
theorem Constraints.isResolved_maxShare
    {constraints : Constraints}
    (valid : constraints.validate = .ok ())
    {share : Ratio}
    (isShare : constraints.maxShare = some share) :
    share.IsResolved := by
  simp only [Constraints.validate, andThen_eq_ok_iff, isShare,
    checkShare, refuseIf_eq_ok_iff, not_or, Int.not_le, Int.not_lt]
    at valid
  obtain ⟨-, -, -, positive, atMostOne⟩ := valid
  have isScale : Ratio.scale = 1000000 := rfl
  unfold Ratio.IsResolved
  omega

/-- Of constraints that are written alike, valid ones are the same: a share is at most one. -/
theorem Constraints.WrittenLike.eq_of_validate
    {first second : Constraints}
    (alike : first.WrittenLike second)
    (valid : first.validate = .ok ()) :
    first = second := by
  have sameShare :=
    eq_of_optionRel alike.maxShare_like fun _ isShare _ sameNumber =>
      (isResolved_maxShare valid isShare).eq_of_toBinary64_eq sameNumber
  cases first
  cases second
  rw [Constraints.mk.injEq]
  exact
    ⟨alike.minReserve_eq, alike.maxReserve_eq, alike.horizonMonths_eq,
      sameShare⟩

namespace Request

variable
    {request other : Request}

/-- The ratios that validation leaves unbounded are below `2 ^ 33`. -/
structure IsResolved (request : Request) : Prop where
  exitMultiple :
    ∀ company ∈ request.companies, company.exitMultiple.IsResolved
  reserveMultiple :
    ∀ policy ∈ request.policies, policy.reserveMultiple.IsResolved
  priorityWeight :
    ∀ policy ∈ request.policies, policy.priorityWeight.IsResolved

/-- Of requests that are written alike, valid and resolved ones are the same. -/
theorem WrittenLike.eq_of_isResolved
    (alike : request.WrittenLike other)
    (valid : request.validate = .ok ())
    (resolved : request.IsResolved) :
    request = other := by
  have sameCompanies :=
    eq_of_forall₂ alike.companies_like
      fun company member _ companyAlike =>
        companyAlike.eq_of_isResolved
          (resolved.exitMultiple company member)
  have samePolicies :=
    eq_of_forall₂ alike.policies_like
      fun policy member _ policyAlike =>
        policyAlike.eq_of_isResolved
          (resolved.reserveMultiple policy member)
          (resolved.priorityWeight policy member)
  have sameConstraints :=
    alike.constraints_like.eq_of_validate
      (validate_eq_ok_iff.mp valid).2.2.2.2
  cases request
  cases other
  rw [Request.mk.injEq]
  exact
    ⟨sameCompanies, alike.available_eq, samePolicies, sameConstraints⟩

/-- Another order of companies and policies brings in no other ratios. -/
theorem Reorders.isResolved
    (reorders : request.Reorders other)
    (resolved : request.IsResolved) :
    other.IsResolved where
  exitMultiple company member :=
    resolved.exitMultiple company
      (reorders.companies_perm.mem_iff.mpr member)
  reserveMultiple policy member :=
    resolved.reserveMultiple policy
      (reorders.policies_perm.mem_iff.mpr member)
  priorityWeight policy member :=
    resolved.priorityWeight policy
      (reorders.policies_perm.mem_iff.mpr member)

/-- The hashed bytes are the same exactly if the canonical forms are written alike. -/
theorem canonicalBytes_eq_iff :
    request.canonicalBytes = other.canonicalBytes ↔
      request.canonical.WrittenLike other.canonical := by
  rw [canonicalBytes, canonicalBytes, toUTF8_toList_inj,
    canonicalText, canonicalText, toText_eq_iff]

/-- Whoever has the bytes of a valid request with resolved ratios reorders it. -/
theorem reorders_of_canonicalBytes_eq
    (valid : request.validate = .ok ())
    (resolved : request.IsResolved)
    (sameBytes : request.canonicalBytes = other.canonicalBytes) :
    request.Reorders other := by
  have reorders := (canonical_reorders request).symm
  apply reorders_of_canonical_eq
  exact
    (canonicalBytes_eq_iff.mp sameBytes).eq_of_isResolved
      (reorders.validate valid) (reorders.isResolved resolved)

/-- Whoever reorders a valid request has its bytes. -/
theorem Reorders.canonicalBytes_eq
    (reorders : request.Reorders other)
    (valid : request.validate = .ok ()) :
    request.canonicalBytes = other.canonicalBytes := by
  simp only [canonicalBytes, canonicalText,
    reorders.canonical_eq valid]

/-- One company at the seed stage, with more capital than it can take. -/
def singleSeed (reserveMultiple : Ratio) : Request where
  companies :=
    [⟨"a", "Alpha", "seed", 1000000, Ratio.one, none⟩]
  available := 9000000000000000
  policies := [⟨"seed", reserveMultiple, Ratio.one⟩]
  constraints := Constraints.none

/-- A single company is in its canonical order. -/
theorem canonical_singleSeed
    (reserveMultiple : Ratio) :
    (singleSeed reserveMultiple).canonical =
      singleSeed reserveMultiple := by
  simp only [canonical, singleSeed, List.mergeSort_singleton]

/-- Multiples that are written alike leave no trace in the bytes. -/
theorem canonicalBytes_singleSeed
    {multiple otherMultiple : Ratio}
    (alike : multiple.WrittenLike otherMultiple) :
    (singleSeed multiple).canonicalBytes =
      (singleSeed otherMultiple).canonicalBytes := by
  rw [canonicalBytes_eq_iff, canonical_singleSeed,
    canonical_singleSeed]
  exact
    { companies_like :=
        .cons ⟨rfl, rfl, rfl, rfl, rfl, rfl⟩ .nil
      available_eq := rfl
      policies_like := .cons ⟨rfl, alike, rfl⟩ .nil
      constraints_like := ⟨rfl, rfl, rfl, .none⟩ }

end Request

namespace Strategy

/--
If the ratios of a valid request are below `2 ^ 33`, every request with the
same canonical bytes has the same plan from every strategy.
-/
theorem plan_determined_by_canonicalBytes
    {request other : Request}
    (valid : request.validate = .ok ())
    (resolved : request.IsResolved)
    (sameBytes : request.canonicalBytes = other.canonicalBytes)
    (strategy : Strategy) :
    ∃ plan,
      strategy.plan request = .ok plan ∧
        strategy.plan other = .ok plan := by
  have reorders :=
    Request.reorders_of_canonicalBytes_eq valid resolved sameBytes
  exact reorders.exists_plan valid strategy

/-- Three seed companies have the bytes, and the plan, of the three in reverse. -/
theorem plan_threeSeeds_determined_by_canonicalBytes :
    Request.threeSeeds.validate = .ok () ∧
      Request.threeSeeds.IsResolved ∧
      Request.threeSeeds.canonicalBytes =
        { Request.threeSeeds with
          companies :=
            Request.threeSeeds.companies.reverse }.canonicalBytes ∧
      ∃ plan,
        Strategy.standard.plan Request.threeSeeds = .ok plan ∧
          Strategy.standard.plan
              { Request.threeSeeds with
                companies := Request.threeSeeds.companies.reverse } =
            .ok plan := by
  have valid := Request.validate_threeSeeds
  have resolved : Request.threeSeeds.IsResolved :=
    ⟨by decide, by decide, by decide⟩
  have sameBytes :=
    (Request.reorders_reverse _).canonicalBytes_eq valid
  exact
    ⟨valid, resolved, sameBytes,
      plan_determined_by_canonicalBytes valid resolved sameBytes _⟩

/--
Two multiples just above `2 ^ 33` share their number, but a company may take
one more unit at the second of them than at the first.
-/
theorem plan_not_determined_by_canonicalBytes :
    (Request.singleSeed ⟨8589934592000001⟩).validate = .ok () ∧
      (Request.singleSeed ⟨8589934592000002⟩).validate = .ok () ∧
      (Request.singleSeed ⟨8589934592000001⟩).canonicalBytes =
        (Request.singleSeed ⟨8589934592000002⟩).canonicalBytes ∧
      Strategy.standard.plan (Request.singleSeed ⟨8589934592000001⟩) ≠
        Strategy.standard.plan
          (Request.singleSeed ⟨8589934592000002⟩) := by
  have sameNumber :
      Ratio.WrittenLike ⟨8589934592000001⟩ ⟨8589934592000002⟩ := by
    unfold Ratio.WrittenLike
    decide +kernel
  have otherTotal :
      (Strategy.standard.plan
          (Request.singleSeed ⟨8589934592000001⟩)).toOption.map
            Plan.allocated ≠
        (Strategy.standard.plan
          (Request.singleSeed ⟨8589934592000002⟩)).toOption.map
            Plan.allocated := by
    decide +kernel
  refine ⟨rfl, rfl, Request.canonicalBytes_singleSeed sameNumber, ?_⟩
  intro samePlan
  exact otherTotal (congrArg (·.toOption.map Plan.allocated) samePlan)

end Strategy

end FollowOn

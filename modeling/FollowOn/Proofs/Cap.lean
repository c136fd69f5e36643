import FollowOn.Proofs.Limits
import Mathlib.Data.Rat.Floor

namespace FollowOn

/-!
# Which bound is the cap

The bounds on the reserve of a company stand in a fixed order, each of them only
if it is set, and the multiple of the stage last. The cap is the least of them,
but not below zero, and its reason is that of the first bound that is as tight.
A tighter or a further bound therefore never raises a cap. All of this holds of
any amounts, also of those that no valid request has.
-/

namespace Ratio

/-- The exact product of an amount and a ratio, rounded down and cut to 64 bits. -/
def productOf
    (ratio : Ratio)
    (amount : Int) :
    Int :=
  max (-2 ^ 63) (min ⌊(amount : ℚ) * ratio.toRat⌋ (2 ^ 63 - 1))

/-- The product is the floor of the exact one, cut off at the ends of the range. -/
theorem applyTo_eq_productOf
    (ratio : Ratio)
    (amount : Int) :
    ratio.applyTo amount = ratio.productOf amount := by
  have quotient :
      ⌊(amount : ℚ) * ratio.toRat⌋ = amount * ratio.micros / scale := by
    rw [toRat, ← mul_div_assoc]
    exact_mod_cast
      Rat.floor_intCast_div_natCast (amount * ratio.micros) 1000000
  rw [productOf, quotient]
  rfl

/-- A greater ratio of an amount that is not below zero is no less. -/
theorem applyTo_le_applyTo
    {left right : Ratio}
    (ordered : left.micros ≤ right.micros)
    {amount : Int}
    (notNegative : 0 ≤ amount) :
    left.applyTo amount ≤ right.applyTo amount := by
  apply Amount.saturate_mono
  exact Int.ediv_le_ediv (by decide)
    (Int.mul_le_mul_of_nonneg_left ordered notNegative)

end Ratio

/-- The bound that the multiple of a stage sets, or a multiple of one without a policy. -/
def multipleBound (invested : Int) : Option StagePolicy → Bound
  | some policy =>
      ⟨policy.reserveMultiple.productOf invested, .stageMultiple⟩
  | none =>
      ⟨Ratio.one.productOf invested, .defaultPolicy⟩

/-- The bounds on the reserve of a company, in the order in which they win ties. -/
def boundsOn
    (company : Company)
    (policy : Option StagePolicy)
    (constraints : Constraints)
    (available : Int) :
    List Bound :=
  (company.hardCap.map fun limit =>
      Bound.mk limit .explicitCap).toList ++
    (constraints.maxReserve.map fun limit =>
      Bound.mk limit .maxReserve).toList ++
    (constraints.maxShare.map fun share =>
      Bound.mk (share.productOf available) .concentration).toList ++
    [multipleBound company.invested policy]

/-- A bound is the least of some bounds, and the first of those that are as tight. -/
structure Bound.IsFirstLeast
    (bounds : List Bound)
    (bound : Bound) : Prop where
  least : ∀ other ∈ bounds, bound.amount ≤ other.amount
  first :
    ∃ earlier later,
      bounds = earlier ++ bound :: later ∧
        ∀ other ∈ earlier, bound.amount < other.amount

/-- The bound that is chosen is the first of the least ones. -/
theorem isFirstLeast_tightest
    (bounds : List Bound)
    (last : Bound) :
    (tightest bounds last).IsFirstLeast (bounds ++ [last]) where
  least _ member := tightest_le member
  first := by
    induction bounds with
    | nil =>
        exact ⟨[], [], rfl, fun _ member => (List.not_mem_nil member).elim⟩
    | cons bound rest inductionHypothesis =>
        obtain ⟨earlier, later, position, looser⟩ := inductionHypothesis
        simp only [tightest, List.foldr_cons] at position looser ⊢
        split
        · -- A bound as tight as the rest comes first and wins.
          exact
            ⟨[], rest ++ [last], rfl,
              fun _ member => (List.not_mem_nil member).elim⟩
        · rename_i notTighter
          refine ⟨bound :: earlier, later, ?_, ?_⟩
          · rw [List.cons_append, position, List.cons_append]
          · exact List.forall_mem_cons.mpr
              ⟨Int.not_le.mp notTighter, looser⟩

section Cap

variable
    (company : Company)
    (policy : Option StagePolicy)
    (constraints : Constraints)
    (available : Int)

/-- Without a policy the multiple is one. -/
theorem stageBound_eq_multipleBound :
    stageBound company policy =
      multipleBound company.invested policy := by
  cases policy <;>
    simp [stageBound, stageMultipleOf, multipleBound,
      Ratio.applyTo_eq_productOf]

/-- The bounds are compared in the order in which they win ties. -/
theorem optionalBounds_append_stageBound :
    optionalBounds company constraints available ++
        [stageBound company policy] =
      boundsOn company policy constraints available := by
  rw [stageBound_eq_multipleBound, boundsOn, optionalBounds]
  cases company.hardCap <;> cases constraints.maxReserve <;>
    cases constraints.maxShare <;>
    simp [List.reduceOption, Ratio.applyTo_eq_productOf]

/-- A company without an investment has a cap for that reason alone. -/
theorem evaluateCap_reason_of_uninvested
    (uninvested : company.invested ≤ 0) :
    (evaluateCap company policy constraints available).reason =
      .zeroInvested := by
  simp only [evaluateCap, if_pos uninvested]

/-- The cap of a company with invested capital is its first least bound, if not below zero. -/
theorem exists_isFirstLeast_evaluateCap
    (invested : 0 < company.invested) :
    ∃ bound : Bound,
      bound.IsFirstLeast
          (boundsOn company policy constraints available) ∧
        (evaluateCap company policy constraints available).amount =
          max 0 bound.amount ∧
        (evaluateCap company policy constraints available).reason =
          bound.reason := by
  refine
    ⟨tightest (optionalBounds company constraints available)
      (stageBound company policy), ?_, ?_⟩
  · rw [← optionalBounds_append_stageBound]
    exact isFirstLeast_tightest _ _
  · simp only [evaluateCap, if_neg (Int.not_le.mpr invested), and_self]

end Cap

/-- A bound that may be missing is kept in place, replaced by a tighter one, or added. -/
def Tightens
    {α : Type}
    (tighter : α → α → Prop)
    (before after : Option α) : Prop :=
  ∀ limit,
    before = some limit →
      ∃ other, after = some other ∧ tighter other limit

/-- What a tightened value gives a bound for is bounded no looser than before. -/
theorem Tightens.exists_bound_le
    {α : Type}
    {tighter : α → α → Prop}
    {before after : Option α}
    (tightens : Tightens tighter before after)
    {boundOf : α → Bound}
    (noLooser :
      ∀ other limit,
        tighter other limit →
          (boundOf other).amount ≤ (boundOf limit).amount)
    {bound : Bound}
    (isBound : some bound = before.map boundOf) :
    ∃ other,
      some other = after.map boundOf ∧
        other.amount ≤ bound.amount := by
  obtain ⟨limit, isLimit, same⟩ :=
    Option.map_eq_some_iff.mp isBound.symm
  obtain ⟨other, isOther, isTighter⟩ := tightens limit isLimit
  subst same
  refine ⟨boundOf other, ?_, noLooser other limit isTighter⟩
  rw [isOther, Option.map_some]

/-- Terms of a company under which each bound is at least as tight as under others. -/
structure TightensTerms
    (available : Int)
    (company tighterCompany : Company)
    (policy tighterPolicy : Option StagePolicy)
    (constraints tighterConstraints : Constraints) : Prop where
  invested_eq : tighterCompany.invested = company.invested
  hardCap :
    Tightens (· ≤ ·) company.hardCap tighterCompany.hardCap
  maxReserve :
    Tightens (· ≤ ·) constraints.maxReserve
      tighterConstraints.maxReserve
  /-- A smaller share bounds more tightly only if the capital is not below zero. -/
  maxShare :
    Tightens
      (fun other share =>
        other = share ∨
          (0 ≤ available ∧ other.micros ≤ share.micros))
      constraints.maxShare tighterConstraints.maxShare
  multiple_le :
    (stageMultipleOf tighterPolicy).micros ≤
      (stageMultipleOf policy).micros

/-- Bounds that each have one among others that is no looser have no smaller least one. -/
theorem tightest_amount_le
    {bounds others : List Bound}
    {last otherLast : Bound}
    (tightens :
      ∀ bound ∈ bounds ++ [last],
        ∃ other ∈ others ++ [otherLast],
          other.amount ≤ bound.amount) :
    (tightest others otherLast).amount ≤
      (tightest bounds last).amount := by
  obtain ⟨other, member, noLooser⟩ :=
    tightens _ (tightest_mem bounds last)
  exact (tightest_le member).trans noLooser

namespace TightensTerms

variable
    {available : Int}
    {company tighterCompany : Company}
    {policy tighterPolicy : Option StagePolicy}
    {constraints tighterConstraints : Constraints}
    (tightens :
      TightensTerms available company tighterCompany policy
        tighterPolicy constraints tighterConstraints)

include tightens

/-- Each bound under looser terms has one no greater under tighter terms. -/
theorem exists_bound_le
    (invested : 0 < company.invested)
    {bound : Bound}
    (member :
      bound ∈
        optionalBounds company constraints available ++
          [stageBound company policy]) :
    ∃ other ∈
        optionalBounds tighterCompany tighterConstraints available ++
          [stageBound tighterCompany tighterPolicy],
      other.amount ≤ bound.amount := by
  simp only [optionalBounds, List.mem_append,
    List.reduceOption_mem_iff, List.mem_cons, List.not_mem_nil,
    or_false] at member ⊢
  rcases member with (isHardCap | isMaxReserve | isMaxShare) | isLast
  · obtain ⟨other, isOther, noLooser⟩ :=
      tightens.hardCap.exists_bound_le (fun _ _ ordered => ordered)
        isHardCap
    exact ⟨other, Or.inl (Or.inl isOther), noLooser⟩
  · obtain ⟨other, isOther, noLooser⟩ :=
      tightens.maxReserve.exists_bound_le (fun _ _ ordered => ordered)
        isMaxReserve
    exact ⟨other, Or.inl (Or.inr (Or.inl isOther)), noLooser⟩
  · -- Of capital below zero a smaller share would be the greater amount.
    have smallerShare (share limit : Ratio) :
        share = limit ∨ (0 ≤ available ∧ share.micros ≤ limit.micros) →
          share.applyTo available ≤ limit.applyTo available := by
      rintro (same | ⟨notNegative, ordered⟩)
      · rw [same]
      · exact Ratio.applyTo_le_applyTo ordered notNegative
    obtain ⟨other, isOther, noLooser⟩ :=
      tightens.maxShare.exists_bound_le smallerShare isMaxShare
    exact ⟨other, Or.inl (Or.inr (Or.inr isOther)), noLooser⟩
  · refine ⟨_, Or.inr rfl, ?_⟩
    rw [isLast]
    simp only [stageBound, tightens.invested_eq]
    exact
      Ratio.applyTo_le_applyTo tightens.multiple_le invested.le

/-- Tighter terms do not raise a cap. -/
theorem evaluateCap_amount_le :
    (evaluateCap tighterCompany tighterPolicy tighterConstraints
        available).amount ≤
      (evaluateCap company policy constraints available).amount := by
  rcases Int.lt_or_le 0 company.invested with invested | uninvested
  · have tighterInvested : 0 < tighterCompany.invested := by
      rw [tightens.invested_eq]
      exact invested
    simp only [evaluateCap, if_neg (Int.not_le.mpr invested),
      if_neg (Int.not_le.mpr tighterInvested)]
    exact
      max_le_max_left 0
        (tightest_amount_le fun _ member =>
          tightens.exists_bound_le invested member)
  · have tighterUninvested : tighterCompany.invested ≤ 0 := by
      rw [tightens.invested_eq]
      exact uninvested
    rw [evaluateCap_amount_of_uninvested tighterUninvested]
    exact evaluateCap_amount_nonneg ..

end TightensTerms

/-- The first policy of a stage in a list, or none if no policy is of that stage. -/
inductive FirstPolicy
    (policies : List StagePolicy)
    (stage : String) :
    Option StagePolicy → Prop where
  | listed
      {policy : StagePolicy}
      {earlier later : List StagePolicy}
      (position : policies = earlier ++ policy :: later)
      (sameStage : policy.stage = stage)
      (otherStages : ∀ other ∈ earlier, other.stage ≠ stage) :
      FirstPolicy policies stage (some policy)
  | unlisted
      (otherStages : ∀ policy ∈ policies, policy.stage ≠ stage) :
      FirstPolicy policies stage none

/-- The policy that the book holds for a stage is the first one of the list. -/
theorem firstPolicy_policyFor?
    (policies : List StagePolicy)
    (stage : String) :
    FirstPolicy policies stage (policyFor? policies stage) := by
  cases found : policyFor? policies stage with
  | none =>
      exact .unlisted (policyFor?_eq_none_iff.mp found)
  | some policy =>
      rw [policyFor?_eq_find?] at found
      obtain ⟨sameStage, earlier, later, position, otherStages⟩ :=
        List.find?_eq_some_iff_append.mp found
      refine .listed position (by simpa using sameStage) ?_
      simpa using otherStages

/--
With capital invested, the cap of a company is the first least of the bounds on
it, or zero if that is below; without, it is zero. Each company of a request gets
its own cap by the first policy of its stage. No cap is raised by making a bound
tighter or by adding one.
-/
theorem cap_is_first_least_bound :
    (∀ (company : Company)
        (policy : Option StagePolicy)
        (constraints : Constraints)
        (available : Int),
      let cap := evaluateCap company policy constraints available
      (company.invested ≤ 0 →
        cap.amount = 0 ∧ cap.reason = .zeroInvested) ∧
      (0 < company.invested →
        ∃ bound : Bound,
          bound.IsFirstLeast
              (boundsOn company policy constraints available) ∧
            cap.amount = max 0 bound.amount ∧
            cap.reason = bound.reason)) ∧
      (∀ request : Request,
        List.Forall₂
          (fun company cap =>
            ∃ policy,
              FirstPolicy request.policies company.stage policy ∧
                cap =
                  evaluateCap company policy request.constraints
                    request.available)
          request.companies request.caps) ∧
      ∀ (company tighterCompany : Company)
        (policy tighterPolicy : Option StagePolicy)
        (constraints tighterConstraints : Constraints)
        (available : Int),
        TightensTerms available company tighterCompany policy
          tighterPolicy constraints tighterConstraints →
        (evaluateCap tighterCompany tighterPolicy tighterConstraints
            available).amount ≤
          (evaluateCap company policy constraints available).amount := by
  refine ⟨?_, ?_, ?_⟩
  · intro company policy constraints available
    exact
      ⟨fun uninvested =>
          ⟨evaluateCap_amount_of_uninvested uninvested,
            evaluateCap_reason_of_uninvested _ _ _ _ uninvested⟩,
        exists_isFirstLeast_evaluateCap _ _ _ _⟩
  · intro request
    rw [Request.caps, List.forall₂_map_right_iff]
    refine List.forall₂_same.mpr ?_
    intro company _
    exact ⟨_, firstPolicy_policyFor? _ _, rfl⟩
  · intro _ _ _ _ _ _ _ tightens
    exact tightens.evaluateCap_amount_le

/-- A company with a limit that is as tight as twice its invested capital. -/
def Company.tied : Company :=
  ⟨"a", "Alpha", "seed", 1000, ⟨3000000⟩, some 2000⟩

/-- A policy that allows twice the investment. -/
def StagePolicy.twice : StagePolicy :=
  ⟨"seed", ⟨2000000⟩, Ratio.one⟩

/-- Constraints that are as tight for a capital of ten thousand. -/
def Constraints.tied : Constraints :=
  { Constraints.none with
    maxReserve := some 2000
    maxShare := some ⟨200000⟩ }

/-- A request for the tied company whose policy is listed before another of its stage. -/
def Request.tied : Request where
  companies := [.tied]
  available := 10000
  policies :=
    [.twice, { StagePolicy.twice with reserveMultiple := ⟨500000⟩ }]
  constraints := .tied

/-- A further bound tightens the terms. -/
theorem TightensTerms.adding_maxReserve :
    TightensTerms 10000 .tied .tied (some .twice) (some .twice)
      { Constraints.tied with maxReserve := none } .tied where
  invested_eq := rfl
  hardCap limit isLimit := ⟨limit, isLimit, Int.le_refl limit⟩
  maxReserve := nofun
  maxShare share isShare := ⟨share, isShare, Or.inl rfl⟩
  multiple_le := Int.le_refl _

/--
Of four bounds that are equally tight the company's own limit is the cap, also
where a later policy of its stage would be tighter. Without invested capital it
has none, and a greatest reserve in addition does not raise it.
-/
theorem cap_is_first_least_bound_tied :
    (({ Company.tied with invested := -1 } : Company).invested ≤ 0 ∧
        (evaluateCap { Company.tied with invested := -1 } none .tied
            10000).reason =
          .zeroInvested) ∧
      (0 < Company.tied.invested ∧
        (evaluateCap .tied (some .twice) .tied 10000).amount = 2000 ∧
        (evaluateCap .tied (some .twice) .tied 10000).reason =
          .explicitCap ∧
        ∃ bound : Bound,
          bound.IsFirstLeast
              (boundsOn .tied (some .twice) .tied 10000) ∧
            (evaluateCap .tied (some .twice) .tied 10000).amount =
              max 0 bound.amount ∧
            (evaluateCap .tied (some .twice) .tied 10000).reason =
              bound.reason) ∧
      (Request.tied.caps.map Cap.amount = [2000] ∧
        List.Forall₂
          (fun company cap =>
            ∃ policy,
              FirstPolicy Request.tied.policies company.stage policy ∧
                cap = evaluateCap company policy .tied 10000)
          [.tied] Request.tied.caps) ∧
      (evaluateCap .tied (some .twice) .tied 10000).amount ≤
        (evaluateCap .tied (some .twice)
          { Constraints.tied with maxReserve := none }
          10000).amount := by
  obtain ⟨ofTerms, ofRequest, ofTightening⟩ := cap_is_first_least_bound
  exact
    ⟨⟨by decide, ((ofTerms _ _ _ _).1 (by decide)).2⟩,
      ⟨by decide, by decide, by decide,
        (ofTerms _ _ _ _).2 (by decide)⟩,
      ⟨by decide, ofRequest .tied⟩,
      ofTightening _ _ _ _ _ _ _ .adding_maxReserve⟩

end FollowOn

import FollowOn.Proofs.Json.RecordReadBack
import FollowOn.Schema.Comparison
import FollowOn.Schema.Reference

namespace FollowOn

/-!
# Written results are read back

Plans, comparisons and reports are read back from their texts if their numbers
fit where they are stored: amounts as signed numbers of 64 bits, passes and
months as natural numbers of 32 bits, and counts of companies of 64 bits. Texts
and lists are not restricted, nor is there a condition on how the numbers
belong together.
-/

open Json

/-- Every reason is read back from its label. -/
theorem Reason.readsBack_codec :
    Reason.codec.ReadsBack fun _ => True :=
  Codec.readsBack_labelled fun reason => by cases reason <;> rfl

/-- The numbers of an allocation fit where they are stored. -/
structure Allocation.Fits (allocation : Allocation) : Prop where
  planned_inRange : Amount.InRange allocation.planned
  cap_inRange : Amount.InRange allocation.cap
  pass_lt : allocation.pass < 2 ^ 32

/-- An allocation whose numbers fit is read back from its text. -/
theorem Allocation.readsBack_codec :
    Allocation.codec.ReadsBack Allocation.Fits := by
  have members :=
    Members.ReadsBack.cons
      (Member.readsBack_required Codec.readsBack_string "companyId")
      (.cons
        (Member.readsBack_required Codec.readsBack_amount "planned")
        (.cons
          (Member.readsBack_required Codec.readsBack_amount "cap")
          (.cons
            (Member.readsBack_required Reason.readsBack_codec "reason")
            (.cons
              (Member.readsBack_required Codec.readsBack_smallCount
                "iteration")
              (.cons
                (Member.readsBack_required Codec.readsBack_boolean
                  "policyDefaulted")
                Members.readsBack_nil)))))
  exact Codec.readsBack_record members _ (fun _ => rfl)
    fun _ fits =>
      ⟨trivial, fits.planned_inRange, fits.cap_inRange, trivial,
        fits.pass_lt, trivial, trivial⟩

/-- The numbers of a discrepancy fit where they are stored. -/
structure Discrepancy.Fits (discrepancy : Discrepancy) : Prop where
  expected_inRange : Amount.InRange discrepancy.expected
  actual_inRange : Amount.InRange discrepancy.actual
  drift_inRange : Amount.InRange discrepancy.drift
  tolerance_inRange : Amount.InRange discrepancy.tolerance

/-- A discrepancy whose numbers fit is read back from its text. -/
theorem Discrepancy.readsBack_codec :
    Discrepancy.codec.ReadsBack Discrepancy.Fits := by
  have members :=
    Members.ReadsBack.cons
      (Member.readsBack_required Codec.readsBack_amount "expected")
      (.cons
        (Member.readsBack_required Codec.readsBack_amount "actual")
        (.cons
          (Member.readsBack_required Codec.readsBack_amount "drift")
          (.cons
            (Member.readsBack_required Codec.readsBack_amount
              "tolerance")
            (.cons
              (Member.readsBack_nonempty Codec.readsBack_string
                "overCap")
              Members.readsBack_nil))))
  exact Codec.readsBack_record members _ (fun _ => rfl)
    fun _ fits =>
      ⟨fits.expected_inRange, fits.actual_inRange, fits.drift_inRange,
        fits.tolerance_inRange, fun _ _ => trivial, trivial⟩

/-- The numbers of a summary fit where they are stored. -/
structure PlanSummary.Fits (summary : PlanSummary) : Prop where
  available_inRange : Amount.InRange summary.available
  allocated_inRange : Amount.InRange summary.allocated
  fundedCount_lt : summary.fundedCount < 2 ^ 64
  passes_lt : summary.passes < 2 ^ 32
  horizonMonths_lt : ∀ months ∈ summary.horizonMonths, months < 2 ^ 32
  discrepancy_fits :
    ∀ discrepancy ∈ summary.discrepancy, discrepancy.Fits

/--
A summary whose numbers fit is read back from its text, a discrepancy only where
there is one.
-/
theorem PlanSummary.readsBack_codec :
    PlanSummary.codec.ReadsBack PlanSummary.Fits := by
  have members :=
    Members.ReadsBack.cons
      (Member.readsBack_required Codec.readsBack_amount
        "totalAvailable")
      (.cons
        (Member.readsBack_required Codec.readsBack_amount
          "totalAllocated")
        (.cons
          (Member.readsBack_required Codec.readsBack_count
            "companiesFunded")
          (.cons
            (Member.readsBack_required Codec.readsBack_string.list
              "rankingOrder")
            (.cons
              (Member.readsBack_required Codec.readsBack_boolean
                "conservationOk")
              (.cons
                (Member.readsBack_required Codec.readsBack_smallCount
                  "passesExecuted")
                (.cons
                  (Member.readsBack_optional
                    Codec.readsBack_smallCount
                    "targetReserveHorizonMonths")
                  (.cons
                    (Member.readsBack_optional
                      Discrepancy.readsBack_codec
                      "conservationDiagnostic")
                    Members.readsBack_nil)))))))
  exact Codec.readsBack_record members _ (fun _ => rfl)
    fun _ fits =>
      ⟨fits.available_inRange, fits.allocated_inRange,
        fits.fundedCount_lt, fun _ _ => trivial, trivial,
        fits.passes_lt, fits.horizonMonths_lt, fits.discrepancy_fits,
        trivial⟩

/-- The numbers of a plan fit where they are stored. -/
structure Plan.Fits (plan : Plan) : Prop where
  allocations_fit : ∀ allocation ∈ plan.allocations, allocation.Fits
  allocated_inRange : Amount.InRange plan.allocated
  remaining_inRange : Amount.InRange plan.remaining
  summary_fits : plan.summary.Fits

/-- A plan whose numbers fit is read back from its text, allocations in their order. -/
theorem Plan.readsBack_codec :
    Plan.codec.ReadsBack Plan.Fits := by
  have members :=
    Members.ReadsBack.cons
      (Member.readsBack_required Allocation.readsBack_codec.list
        "allocations")
      (.cons
        (Member.readsBack_required Codec.readsBack_amount
          "totalAllocated")
        (.cons
          (Member.readsBack_required Codec.readsBack_amount
            "remaining")
          (.cons
            (Member.readsBack_required PlanSummary.readsBack_codec
              "metadata")
            Members.readsBack_nil)))
  exact Codec.readsBack_record members _ (fun _ => rfl)
    fun _ fits =>
      ⟨fits.allocations_fit, fits.allocated_inRange,
        fits.remaining_inRange, fits.summary_fits, trivial⟩

/-- The amounts set side by side for a company are in range. -/
structure CompanyDelta.Fits (company : CompanyDelta) : Prop where
  primary_inRange : Amount.InRange company.primary
  shadow_inRange : Amount.InRange company.shadow
  delta_inRange : Amount.InRange company.delta

/-- A delta whose numbers fit is read back from its text. -/
theorem CompanyDelta.readsBack_codec :
    CompanyDelta.codec.ReadsBack CompanyDelta.Fits := by
  have members :=
    Members.ReadsBack.cons
      (Member.readsBack_required Codec.readsBack_string "companyId")
      (.cons
        (Member.readsBack_required Codec.readsBack_amount "primary")
        (.cons
          (Member.readsBack_required Codec.readsBack_amount "shadow")
          (.cons
            (Member.readsBack_required Codec.readsBack_amount "delta")
            Members.readsBack_nil)))
  exact Codec.readsBack_record members _ (fun _ => rfl)
    fun _ fits =>
      ⟨trivial, fits.primary_inRange, fits.shadow_inRange,
        fits.delta_inRange, trivial⟩

/-- The numbers of a comparison fit where they are stored. -/
structure Comparison.Fits (comparison : Comparison) : Prop where
  primary_fits : comparison.primary.Fits
  shadow_fits : comparison.shadow.Fits
  deltas_fit : ∀ company ∈ comparison.deltas, company.Fits
  totalDelta_inRange : Amount.InRange comparison.totalDelta

/-- A comparison whose numbers fit is read back from its text. -/
theorem Comparison.readsBack_codec :
    Comparison.codec.ReadsBack Comparison.Fits := by
  have members :=
    Members.ReadsBack.cons
      (Member.readsBack_required Codec.readsBack_string
        "primaryEngine")
      (.cons
        (Member.readsBack_required Codec.readsBack_string
          "shadowEngine")
        (.cons
          (Member.readsBack_required Plan.readsBack_codec "primary")
          (.cons
            (Member.readsBack_required Plan.readsBack_codec "shadow")
            (.cons
              (Member.readsBack_required
                CompanyDelta.readsBack_codec.list "deltas")
              (.cons
                (Member.readsBack_required Codec.readsBack_amount
                  "totalDelta")
                Members.readsBack_nil)))))
  exact Codec.readsBack_record members _ (fun _ => rfl)
    fun _ fits =>
      ⟨trivial, trivial, fits.primary_fits, fits.shadow_fits,
        fits.deltas_fit, fits.totalDelta_inRange, trivial⟩

/-- The amounts of a mismatch are in range. -/
structure Mismatch.Fits (mismatch : Mismatch) : Prop where
  expected_inRange : Amount.InRange mismatch.expected
  actual_inRange : Amount.InRange mismatch.actual

/-- A mismatch whose numbers fit is read back from its text. -/
theorem Mismatch.readsBack_codec :
    Mismatch.codec.ReadsBack Mismatch.Fits := by
  have members :=
    Members.ReadsBack.cons
      (Member.readsBack_required Codec.readsBack_string "companyId")
      (.cons
        (Member.readsBack_required Codec.readsBack_amount "expected")
        (.cons
          (Member.readsBack_required Codec.readsBack_amount "actual")
          Members.readsBack_nil))
  exact Codec.readsBack_record members _ (fun _ => rfl)
    fun _ fits =>
      ⟨trivial, fits.expected_inRange, fits.actual_inRange, trivial⟩

/-- The amounts of an outcome are in range. -/
structure CaseOutcome.Fits (outcome : CaseOutcome) : Prop where
  totalDrift_inRange : Amount.InRange outcome.totalDrift
  mismatches_fit : ∀ mismatch ∈ outcome.mismatches, mismatch.Fits

/-- The outcome of a case is read back, mismatches and error included. -/
theorem CaseOutcome.readsBack_codec :
    CaseOutcome.codec.ReadsBack CaseOutcome.Fits := by
  have members :=
    Members.ReadsBack.cons
      (Member.readsBack_required Codec.readsBack_string "name")
      (.cons
        (Member.readsBack_required Codec.readsBack_boolean "passed")
        (.cons
          (Member.readsBack_required Codec.readsBack_amount
            "totalDrift")
          (.cons
            (Member.readsBack_required Mismatch.readsBack_codec.list
              "mismatches")
            (.cons
              (Member.readsBack_optional Codec.readsBack_string "error")
              Members.readsBack_nil))))
  exact Codec.readsBack_record members _ (fun _ => rfl)
    fun _ fits =>
      ⟨trivial, trivial, fits.totalDrift_inRange, fits.mismatches_fit,
        fun _ _ => trivial, trivial⟩

/-- The amounts of a report are in range. -/
structure ReferenceReport.Fits (report : ReferenceReport) : Prop where
  tolerance_inRange : Amount.InRange report.tolerance
  outcomes_fit : ∀ outcome ∈ report.outcomes, outcome.Fits

/-- A report whose counts fit is read back from its text. -/
theorem ReferenceReport.readsBack_codec :
    ReferenceReport.codec.ReadsBack ReferenceReport.Fits := by
  have members :=
    Members.ReadsBack.cons
      (Member.readsBack_required Codec.readsBack_string "engine")
      (.cons
        (Member.readsBack_required Codec.readsBack_amount "tolerance")
        (.cons
          (Member.readsBack_required CaseOutcome.readsBack_codec.list
            "outcomes")
          Members.readsBack_nil))
  exact Codec.readsBack_record members _ (fun _ => rfl)
    fun _ fits =>
      ⟨trivial, fits.tolerance_inRange, fits.outcomes_fit, trivial⟩

/--
Results are what their texts hold.

Every plan, every comparison and every report whose numbers fit is decoded from
its text as it was, whatever it says and however it came about. Two of them
with the same text are the same.
-/
theorem results_faithful :
    Plan.codec.Faithful Plan.Fits ∧
      Comparison.codec.Faithful Comparison.Fits ∧
      ReferenceReport.codec.Faithful ReferenceReport.Fits :=
  ⟨Plan.readsBack_codec.faithful,
    Comparison.readsBack_codec.faithful,
    ReferenceReport.readsBack_codec.faithful⟩

/-- A plan of outermost numbers, with characters that are escaped or not ASCII. -/
def Plan.outermost : Plan where
  allocations :=
    [{ companyId := "\"\u0001\\ é 😀"
       planned := Amount.least
       cap := Amount.greatest
       reason := .passLimit
       pass := 2 ^ 32 - 1
       policyDefaulted := true }]
  allocated := Amount.least
  remaining := Amount.greatest
  summary :=
    { available := Amount.greatest
      allocated := Amount.least
      fundedCount := 2 ^ 64 - 1
      ranking := ["", "\n"]
      conserved := false
      passes := 2 ^ 32 - 1
      horizonMonths := some 0
      discrepancy :=
        some
          { expected := Amount.least
            actual := Amount.greatest
            drift := Amount.greatest
            tolerance := 0
            outsideCap := [] } }

/-- The numbers of the outermost plan still fit. -/
theorem Plan.outermost_fits :
    Plan.outermost.Fits where
  allocations_fit := by
    intro allocation member
    rw [List.mem_singleton.mp member]
    exact ⟨by decide, by decide, by decide⟩
  allocated_inRange := by decide
  remaining_inRange := by decide
  summary_fits := by
    refine ⟨by decide, by decide, by decide, by decide, ?_, ?_⟩
    · rintro months ⟨⟩
      decide
    · rintro discrepancy ⟨⟩
      exact ⟨by decide, by decide, by decide, by decide⟩

/-- A plan of outermost numbers is read back, and so is a report of what failed. -/
theorem results_faithful_outermost :
    Plan.codec.decode Plan.outermost.toText = .ok Plan.outermost ∧
      (let report : ReferenceReport :=
        { strategy := "\t"
          tolerance := Amount.least
          outcomes :=
            [{ name := "¬"
               passed := false
               totalDrift := 0
               mismatches := []
               fault := some "validation: \"x\"" }] }
      ReferenceReport.codec.decode
          (ReferenceReport.codec.encode report) =
        .ok report) := by
  refine
    ⟨results_faithful.1.decode_encode Plan.outermost_fits,
      results_faithful.2.2.decode_encode ⟨by decide, ?_⟩⟩
  intro outcome member
  rw [List.mem_singleton.mp member]
  exact ⟨by decide, fun _ none => (List.not_mem_nil none).elim⟩

end FollowOn

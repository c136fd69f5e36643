import FollowOn.Fingerprint
import FollowOn.Proofs.Json.RecordReadBack
import FollowOn.Proofs.RatioReadBack
import FollowOn.Strategy

namespace FollowOn

/-!
# Written requests are read back

A request is read back from its text, whether it is valid or not, if its
numbers fit where they are stored and none of its ratios exceeds `2 ^ 32` in
magnitude. The fingerprint and the plans of such a request are then the same if
it is sent as a text.
-/

open Json

/-- A number that was read is accepted as the ratio that it is rounded to. -/
theorem Ratio.accept_floating
    {value : Binary64}
    {ratio : Ratio}
    (readBack : Ratio.ofBinary64? value = .ok ratio) :
    Ratio.accept (.floating value) = .ok ratio := by
  simp only [accept, Number.toBinary64, readBack]

/-- Ratios up to `2 ^ 32` are read back from their texts, though they are rounded on the way. -/
theorem Ratio.readsBack_codec :
    Ratio.codec.ReadsBack Ratio.IsModerate where
  write_eq_cons ratio moderate := by
    have starts :=
      startsNumber_text (decide (ratio.micros < 0))
        (Binary64.nearestUnits ratio.micros.natAbs 1000000)
    rw [← moderate.isResolved.toBinary64_eq] at starts
    exact starts.exists_opensValue
  read_write_append ratio rest moderate ends := by
    have representable := representable_toBinary64 ratio
    have readBack := moderate.ofBinary64?_toBinary64
    simp only [codec]
    rw [moderate.isResolved.toBinary64_eq] at representable readBack ⊢
    exact readNumberAs_append (startsNumber_text _ _)
      (readNumber_text representable
        (Ratio.isShort_shortest moderate _) ends)
      (accept_floating readBack)

/-- The numbers of a company come through a text. -/
structure Company.IsPortable (company : Company) : Prop where
  invested_inRange : Amount.InRange company.invested
  exitMultiple_moderate : company.exitMultiple.IsModerate
  hardCap_inRange : ∀ amount ∈ company.hardCap, Amount.InRange amount

/--
A company whose numbers come through is read back from its text, an absent cap
included.
-/
theorem Company.readsBack_codec :
    Company.codec.ReadsBack Company.IsPortable := by
  have members :=
    Members.ReadsBack.cons
      (Member.readsBack_required Codec.readsBack_string "id")
      (.cons (Member.readsBack_required Codec.readsBack_string "name")
        (.cons
          (Member.readsBack_required Codec.readsBack_string "stage")
          (.cons
            (Member.readsBack_required Codec.readsBack_amount
              "invested")
            (.cons
              (Member.readsBack_required Ratio.readsBack_codec
                "exitMoic")
              (.cons
                (Member.readsBack_optional Codec.readsBack_amount
                  "hardCap")
                Members.readsBack_nil)))))
  exact Codec.readsBack_record members _ (fun _ => rfl)
    fun _ portable =>
      ⟨trivial, trivial, trivial, portable.invested_inRange,
        portable.exitMultiple_moderate, portable.hardCap_inRange,
        trivial⟩

/-- The ratios of a policy come through a text. -/
structure StagePolicy.IsPortable (policy : StagePolicy) : Prop where
  reserveMultiple_moderate : policy.reserveMultiple.IsModerate
  priorityWeight_moderate : policy.priorityWeight.IsModerate

/--
A policy whose ratios come through is read back, its weight being written even
if it is one.
-/
theorem StagePolicy.readsBack_codec :
    StagePolicy.codec.ReadsBack StagePolicy.IsPortable := by
  have members :=
    Members.ReadsBack.cons
      (Member.readsBack_required Codec.readsBack_string "stage")
      (.cons
        (Member.readsBack_required Ratio.readsBack_codec
          "reserveMultiple")
        (.cons
          (Member.readsBack_defaulted Ratio.readsBack_codec
            "priorityWeight" Ratio.one)
          Members.readsBack_nil))
  exact Codec.readsBack_record members _ (fun _ => rfl)
    fun _ portable =>
      ⟨trivial, portable.reserveMultiple_moderate,
        portable.priorityWeight_moderate, trivial⟩

/-- The numbers of constraints come through a text. -/
structure Constraints.IsPortable (constraints : Constraints) : Prop where
  minReserve_inRange :
    ∀ amount ∈ constraints.minReserve, Amount.InRange amount
  maxReserve_inRange :
    ∀ amount ∈ constraints.maxReserve, Amount.InRange amount
  horizonMonths_lt :
    ∀ months ∈ constraints.horizonMonths, months < 2 ^ 32
  maxShare_moderate : ∀ share ∈ constraints.maxShare, share.IsModerate

/--
Constraints whose numbers come through are read back, those that are absent as
absent.
-/
theorem Constraints.readsBack_codec :
    Constraints.codec.ReadsBack Constraints.IsPortable := by
  have members :=
    Members.ReadsBack.cons
      (Member.readsBack_optional Codec.readsBack_amount "minReserve")
      (.cons
        (Member.readsBack_optional Codec.readsBack_amount "maxReserve")
        (.cons
          (Member.readsBack_optional Codec.readsBack_smallCount
            "targetReserveHorizonMonths")
          (.cons
            (Member.readsBack_optional Ratio.readsBack_codec
              "maxConcentration")
            Members.readsBack_nil)))
  exact Codec.readsBack_record members _ (fun _ => rfl)
    fun _ portable =>
      ⟨portable.minReserve_inRange, portable.maxReserve_inRange,
        portable.horizonMonths_lt, portable.maxShare_moderate, trivial⟩

/-- The numbers of a request come through a text. -/
structure Request.IsPortable (request : Request) : Prop where
  companies_portable : ∀ company ∈ request.companies, company.IsPortable
  available_inRange : Amount.InRange request.available
  policies_portable : ∀ policy ∈ request.policies, policy.IsPortable
  constraints_portable : request.constraints.IsPortable

/-- A request whose numbers come through is read back with its lists in their order. -/
theorem Request.readsBack_codec :
    Request.codec.ReadsBack Request.IsPortable := by
  have members :=
    Members.ReadsBack.cons
      (Member.readsBack_required Company.readsBack_codec.list
        "companies")
      (.cons
        (Member.readsBack_required Codec.readsBack_amount
          "availableReserves")
        (.cons
          (Member.readsBack_defaulted StagePolicy.readsBack_codec.list
            "stagePolicies" [])
          (.cons
            (Member.readsBack_defaulted Constraints.readsBack_codec
              "constraints" Constraints.none)
            Members.readsBack_nil)))
  exact Codec.readsBack_record members _ (fun _ => rfl)
    fun _ portable =>
      ⟨portable.companies_portable, portable.available_inRange,
        portable.policies_portable, portable.constraints_portable,
        trivial⟩

namespace Request

/-- The whole text of a request is read as the request, with nothing left over. -/
theorem IsPortable.ofText_toText
    {request : Request}
    (portable : request.IsPortable) :
    ofText request.toText = .ok request := by
  have read := readsBack_codec.decode_encode portable
  rw [ofText, readText, toText, read]
  rfl

/--
A request comes through its text unchanged, and so do its fingerprint and its
plans.

Nothing is asked of the request but that its numbers fit where they are stored
and that its ratios are moderate; in particular it need not be valid.
-/
theorem comes_through_text
    {request : Request}
    (portable : request.IsPortable) :
    ofText request.toText = .ok request ∧
      (ofText request.toText).map fingerprint =
        .ok request.fingerprint ∧
      ∀ strategy : Strategy,
        (ofText request.toText).bind strategy.plan =
          strategy.plan request := by
  rw [portable.ofText_toText]
  exact ⟨rfl, rfl, fun _ => rfl⟩

/-- A request of outermost numbers, which no strategy plans. -/
def outermost : Request where
  companies :=
    [{ id := "\""
       name := "é\u0000"
       stage := ""
       invested := Amount.least
       exitMultiple := ⟨4294967296000000⟩
       hardCap := some Amount.greatest },
     { id := "\""
       name := ""
       stage := "\t"
       invested := 0
       exitMultiple := ⟨-4294967295999999⟩
       hardCap := none }]
  available := Amount.greatest
  policies :=
    [{ stage := "\t"
       reserveMultiple := ⟨1⟩
       priorityWeight := ⟨-1⟩ }]
  constraints :=
    { minReserve := some (-1)
      maxReserve := none
      horizonMonths := some (2 ^ 32 - 1)
      maxShare := some ⟨123456789⟩ }

/-- The greatest and least numbers that come through do so together. -/
theorem outermost_isPortable :
    outermost.IsPortable where
  companies_portable := by
    intro company member
    simp only [outermost, List.mem_cons, List.not_mem_nil,
      or_false] at member
    rcases member with isFirst | isSecond
    · rw [isFirst]
      exact ⟨by decide, by decide, by rintro _ ⟨⟩; decide⟩
    · rw [isSecond]
      exact ⟨by decide, by decide, by rintro _ ⟨⟩⟩
  available_inRange := by decide
  policies_portable := by
    intro policy member
    rw [List.mem_singleton.mp member]
    exact ⟨by decide, by decide⟩
  constraints_portable := by
    refine ⟨?_, ?_, ?_, ?_⟩ <;> rintro _ ⟨⟩ <;> decide

/-- A request that no strategy plans comes through its text as well. -/
theorem comes_through_text_outermost :
    outermost.IsPortable ∧
      outermost.validate ≠ .ok () ∧
      ofText outermost.toText = .ok outermost ∧
      (ofText outermost.toText).map fingerprint =
        .ok outermost.fingerprint := by
  obtain ⟨read, sameFingerprint, -⟩ :=
    comes_through_text outermost_isPortable
  exact ⟨outermost_isPortable, by decide, read, sameFingerprint⟩

end Request

end FollowOn

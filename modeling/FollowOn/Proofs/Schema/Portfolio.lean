import FollowOn.Proofs.Json.Record
import FollowOn.Proofs.Ratio
import FollowOn.Schema.Portfolio
import Mathlib.Tactic.MkIffOfInductiveProp

namespace FollowOn

/-!
# What the text of a request determines

The text of a request determines all of it but its ratios: of a ratio it
determines the floating-point number. `WrittenLike` relates values that agree
so far, and requests have the same text exactly if they are so related.
-/

open Json

/-- Ratios with the same floating-point number. -/
def Ratio.WrittenLike (first second : Ratio) : Prop :=
  first.toBinary64 = second.toBinary64

/-- The text of a ratio determines its floating-point number, and nothing more. -/
theorem Ratio.determines_codec :
    Ratio.codec.Determines Ratio.WrittenLike where
  write_eq _ _ sameNumber :=
    congrArg
      (fun number : Binary64 =>
        (number.text Decimal.Layout.data).toList)
      sameNumber
  write_append_inj _ _ _ _ ends secondEnds same :=
    text_append_inj (representable_toBinary64 _)
      (representable_toBinary64 _) ends secondEnds same

/-- Companies that agree but for an exit multiple that is written alike. -/
@[mk_iff] structure Company.WrittenLike (first second : Company) : Prop where
  id_eq : first.id = second.id
  name_eq : first.name = second.name
  stage_eq : first.stage = second.stage
  invested_eq : first.invested = second.invested
  exitMultiple_like :
    first.exitMultiple.WrittenLike second.exitMultiple
  hardCap_eq : first.hardCap = second.hardCap

/-- The text of a company determines all of it but its exit multiple. -/
theorem Company.determines_codec :
    Company.codec.Determines Company.WrittenLike := by
  have members :=
    Members.Determines.cons
      (Member.determines_required Codec.determines_string "id")
      (.cons (Member.determines_required Codec.determines_string "name")
        (.cons
          (Member.determines_required Codec.determines_string "stage")
          (.cons
            (Member.determines_required Codec.determines_amount
              "invested")
            (.cons
              (Member.determines_required Ratio.determines_codec
                "exitMoic")
              (.cons
                (Member.determines_optional_eq Codec.determines_amount
                  "hardCap")
                Members.determines_nil)))))
  exact Codec.determines_record members _ _
    (by simp [Company.writtenLike_iff])

/-- Policies of one stage whose ratios are written alike. -/
@[mk_iff] structure StagePolicy.WrittenLike
    (first second : StagePolicy) : Prop where
  stage_eq : first.stage = second.stage
  reserveMultiple_like :
    first.reserveMultiple.WrittenLike second.reserveMultiple
  priorityWeight_like :
    first.priorityWeight.WrittenLike second.priorityWeight

/-- The text of a policy determines its stage and how its ratios are written. -/
theorem StagePolicy.determines_codec :
    StagePolicy.codec.Determines StagePolicy.WrittenLike := by
  have members :=
    Members.Determines.cons
      (Member.determines_required Codec.determines_string "stage")
      (.cons
        (Member.determines_required Ratio.determines_codec
          "reserveMultiple")
        (.cons
          (Member.determines_defaulted Ratio.determines_codec
            "priorityWeight" Ratio.one)
          Members.determines_nil))
  exact Codec.determines_record members _ _
    (by simp [StagePolicy.writtenLike_iff])

/-- Constraints that agree but for a greatest share that is written alike. -/
@[mk_iff] structure Constraints.WrittenLike
    (first second : Constraints) : Prop where
  minReserve_eq : first.minReserve = second.minReserve
  maxReserve_eq : first.maxReserve = second.maxReserve
  horizonMonths_eq : first.horizonMonths = second.horizonMonths
  maxShare_like :
    Option.Rel Ratio.WrittenLike first.maxShare second.maxShare

/--
The text of constraints determines their amounts and how the greatest share is
written.
-/
theorem Constraints.determines_codec :
    Constraints.codec.Determines Constraints.WrittenLike := by
  have members :=
    Members.Determines.cons
      (Member.determines_optional_eq Codec.determines_amount
        "minReserve")
      (.cons
        (Member.determines_optional_eq Codec.determines_amount
          "maxReserve")
        (.cons
          (Member.determines_optional_eq Codec.determines_smallCount
            "targetReserveHorizonMonths")
          (.cons
            (Member.determines_optional Ratio.determines_codec
              "maxConcentration")
            Members.determines_nil)))
  exact Codec.determines_record members _ _
    (by simp [Constraints.writtenLike_iff])

/-- Requests that agree, item by item, in all that is written of them. -/
@[mk_iff] structure Request.WrittenLike (first second : Request) : Prop where
  companies_like :
    List.Forall₂ Company.WrittenLike first.companies second.companies
  available_eq : first.available = second.available
  policies_like :
    List.Forall₂ StagePolicy.WrittenLike first.policies second.policies
  constraints_like :
    first.constraints.WrittenLike second.constraints

/--
The text of a request determines its items in their order, up to how ratios are
written.
-/
theorem Request.determines_codec :
    Request.codec.Determines Request.WrittenLike := by
  have companies :=
    Company.determines_codec.list fun _ => ⟨'{', _, rfl, by decide⟩
  have policies :=
    StagePolicy.determines_codec.list fun _ => ⟨'{', _, rfl, by decide⟩
  have members :=
    Members.Determines.cons
      (Member.determines_required companies "companies")
      (.cons
        (Member.determines_required Codec.determines_amount
          "availableReserves")
        (.cons
          (Member.determines_defaulted policies "stagePolicies" [])
          (.cons
            (Member.determines_defaulted Constraints.determines_codec
              "constraints" Constraints.none)
            Members.determines_nil)))
  exact Codec.determines_record members _ _
    (by simp [Request.writtenLike_iff])

/-- Requests have the same text exactly if they are written alike. -/
theorem Request.toText_eq_iff
    {first second : Request} :
    first.toText = second.toText ↔ first.WrittenLike second :=
  determines_codec.encode_eq_iff

end FollowOn

import FollowOn.Comparison
import FollowOn.Schema.Plan

namespace FollowOn

/-!
# Comparisons as structured data

The written form of comparisons between two strategies.
-/

open Json

def CompanyDelta.codec : Codec CompanyDelta :=
  Codec.record "CompanyDelta"
    (.cons (.required "companyId" .string)
      (.cons (.required "primary" .amount)
        (.cons (.required "shadow" .amount)
          (.cons (.required "delta" .amount) .nil))))
    (fun (companyId, primary, shadow, delta, ()) =>
      { companyId, primary, shadow, delta })
    (fun company =>
      (company.companyId, company.primary, company.shadow,
        company.delta, ()))

def Comparison.codec : Codec Comparison :=
  Codec.record "ShadowComparison"
    (.cons (.required "primaryEngine" .string)
      (.cons (.required "shadowEngine" .string)
        (.cons (.required "primary" Plan.codec)
          (.cons (.required "shadow" Plan.codec)
            (.cons (.required "deltas" CompanyDelta.codec.list)
              (.cons (.required "totalDelta" .amount) .nil))))))
    (fun (primaryName, shadowName, primary, shadow, deltas,
        totalDelta, ()) =>
      { primaryName, shadowName, primary, shadow, deltas,
        totalDelta })
    (fun comparison =>
      (comparison.primaryName, comparison.shadowName,
        comparison.primary, comparison.shadow, comparison.deltas,
        comparison.totalDelta, ()))

end FollowOn

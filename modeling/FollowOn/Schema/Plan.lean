import FollowOn.Json.Record
import FollowOn.Strategy

namespace FollowOn

/-!
# Plans and settings as structured data

The written form of allocations, audit reports, plans, and the settings of a
strategy.
-/

open Json

def Reason.labels : Labels Reason where
  all := Reason.all
  label := Reason.label

def Reason.codec : Codec Reason :=
  Codec.labelled Reason.labels

def SharingRule.labels : Labels SharingRule where
  all := SharingRule.all
  label := SharingRule.label

def SharingRule.codec : Codec SharingRule :=
  Codec.labelled SharingRule.labels

/-- Settings; each one has its usual value if it is missing. -/
def Settings.codec : Codec Settings :=
  Codec.record "EngineConfig"
    (.cons
      (.defaulted "maxRemainderPasses" .smallCount
        Settings.standard.maxRemainderPasses)
      (.cons
        (.defaulted "epsilonPerCompany" .amount
          Settings.standard.tolerancePerCompany)
        (.cons
          (.defaulted "passMode" SharingRule.codec
            Settings.standard.sharing)
          .nil)))
    (fun (maxRemainderPasses, tolerancePerCompany, sharing, ()) =>
      { maxRemainderPasses, tolerancePerCompany, sharing })
    (fun settings =>
      (settings.maxRemainderPasses, settings.tolerancePerCompany,
        settings.sharing, ()))

def Allocation.codec : Codec Allocation :=
  Codec.record "AllocationRecord"
    (.cons (.required "companyId" .string)
      (.cons (.required "planned" .amount)
        (.cons (.required "cap" .amount)
          (.cons (.required "reason" Reason.codec)
            (.cons (.required "iteration" .smallCount)
              (.cons (.required "policyDefaulted" .boolean) .nil))))))
    (fun (companyId, planned, cap, reason, pass, policyDefaulted, ()) =>
      { companyId, planned, cap, reason, pass, policyDefaulted })
    (fun allocation =>
      (allocation.companyId, allocation.planned, allocation.cap,
        allocation.reason, allocation.pass,
        allocation.policyDefaulted, ()))

/-- Discrepancies; the list of companies is left out if it is empty. -/
def Discrepancy.codec : Codec Discrepancy :=
  Codec.record "ConservationDiagnostic"
    (.cons (.required "expected" .amount)
      (.cons (.required "actual" .amount)
        (.cons (.required "drift" .amount)
          (.cons (.required "tolerance" .amount)
            (.cons (.nonempty "overCap" .string) .nil)))))
    (fun (expected, actual, drift, tolerance, outsideCap, ()) =>
      { expected, actual, drift, tolerance, outsideCap })
    (fun discrepancy =>
      (discrepancy.expected, discrepancy.actual, discrepancy.drift,
        discrepancy.tolerance, discrepancy.outsideCap, ()))

def PlanSummary.codec : Codec PlanSummary :=
  Codec.record "EngineMetadata"
    (.cons (.required "totalAvailable" .amount)
      (.cons (.required "totalAllocated" .amount)
        (.cons (.required "companiesFunded" .count)
          (.cons (.required "rankingOrder" Codec.string.list)
            (.cons (.required "conservationOk" .boolean)
              (.cons (.required "passesExecuted" .smallCount)
                (.cons
                  (.optional "targetReserveHorizonMonths" .smallCount)
                  (.cons
                    (.optional "conservationDiagnostic"
                      Discrepancy.codec)
                    .nil))))))))
    (fun (available, allocated, fundedCount, ranking, conserved,
        passes, horizonMonths, discrepancy, ()) =>
      { available, allocated, fundedCount, ranking, conserved,
        passes, horizonMonths, discrepancy })
    (fun summary =>
      (summary.available, summary.allocated, summary.fundedCount,
        summary.ranking, summary.conserved, summary.passes,
        summary.horizonMonths, summary.discrepancy, ()))

def Plan.codec : Codec Plan :=
  Codec.record "EngineResult"
    (.cons (.required "allocations" Allocation.codec.list)
      (.cons (.required "totalAllocated" .amount)
        (.cons (.required "remaining" .amount)
          (.cons (.required "metadata" PlanSummary.codec) .nil))))
    (fun (allocations, allocated, remaining, summary, ()) =>
      { allocations, allocated, remaining, summary })
    (fun plan =>
      (plan.allocations, plan.allocated, plan.remaining,
        plan.summary, ()))

def Plan.toText (plan : Plan) : String :=
  Plan.codec.encode plan

end FollowOn

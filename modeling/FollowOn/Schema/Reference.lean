import FollowOn.Reference
import FollowOn.Schema.Plan
import FollowOn.Schema.Portfolio

namespace FollowOn

/-!
# Reference cases and reports as structured data

The written form of reference cases, their outcomes and their reports.
-/

open Json

namespace Targets

/-- Read the amount of one id; an id that comes again replaces its amount. -/
def readEntry
    (id : String)
    (held : Targets) :
    Reader Targets :=
  fun text => do
    let (amount, rest) ← Codec.amount.read (← afterColon text)
    .ok (held.set id amount, rest)

/-- Amounts by id, as the members of an object. -/
def codec : Codec Targets where
  write targets :=
    let members := targets.entries.map fun (id, amount) =>
      writeString id ++ ':' :: writeInteger amount
    '{' :: (joined members ++ ['}'])
  read text :=
    match skipBlanks text with
    | '{' :: body => readObject readEntry Targets.empty body
    | other => .error (mismatch .map other)

end Targets

/-- Reference cases; the amounts of companies may be missing. -/
def ReferenceCase.codec : Codec ReferenceCase :=
  Codec.record "ParityCase"
    (.cons (.required "name" .string)
      (.cons (.required "input" Request.codec)
        (.cons (.required "expectedTotal" .amount)
          (.cons
            (.defaulted "expectedAllocations" Targets.codec
              Targets.empty)
            .nil))))
    (fun (name, request, expectedTotal, targets, ()) =>
      { name, request, expectedTotal, targets })
    (fun case_ =>
      (case_.name, case_.request, case_.expectedTotal,
        case_.targets, ()))

def Mismatch.codec : Codec Mismatch :=
  Codec.record "AllocationMismatch"
    (.cons (.required "companyId" .string)
      (.cons (.required "expected" .amount)
        (.cons (.required "actual" .amount) .nil)))
    (fun (companyId, expected, actual, ()) =>
      { companyId, expected, actual })
    (fun mismatch =>
      (mismatch.companyId, mismatch.expected, mismatch.actual, ()))

def CaseOutcome.codec : Codec CaseOutcome :=
  Codec.record "ParityOutcome"
    (.cons (.required "name" .string)
      (.cons (.required "passed" .boolean)
        (.cons (.required "totalDrift" .amount)
          (.cons (.required "mismatches" Mismatch.codec.list)
            (.cons (.optional "error" .string) .nil)))))
    (fun (name, passed, totalDrift, mismatches, fault, ()) =>
      { name, passed, totalDrift, mismatches, fault })
    (fun outcome =>
      (outcome.name, outcome.passed, outcome.totalDrift,
        outcome.mismatches, outcome.fault, ()))

def ReferenceReport.codec : Codec ReferenceReport :=
  Codec.record "ParityReport"
    (.cons (.required "engine" .string)
      (.cons (.required "tolerance" .amount)
        (.cons (.required "outcomes" CaseOutcome.codec.list) .nil)))
    (fun (strategy, tolerance, outcomes, ()) =>
      { strategy, tolerance, outcomes })
    (fun report =>
      (report.strategy, report.tolerance, report.outcomes, ()))

end FollowOn

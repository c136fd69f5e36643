import FollowOn.Json.Record
import FollowOn.RequestFault
import FollowOn.Portfolio

namespace FollowOn

/-!
# Requests as structured data

The written form of companies, policies, constraints and whole requests.
Ratios are written as floating-point numbers and rounded when they are read.
-/

open Json

/-- A number as a ratio; one that is out of range is refused. -/
def Ratio.accept (number : Number) : Except Json.Fault Ratio :=
  match Ratio.ofBinary64? number.toBinary64 with
  | .ok ratio => .ok ratio
  | .error issue =>
      .error (.refused (RequestFault.invalidRatio issue).message)

def Ratio.codec : Codec Ratio where
  write ratio :=
    (ratio.toBinary64.text Decimal.Layout.data).toList
  read := readNumberAs .number Ratio.accept

def Company.codec : Codec Company :=
  Codec.record "Company"
    (.cons (.required "id" .string)
      (.cons (.required "name" .string)
        (.cons (.required "stage" .string)
          (.cons (.required "invested" .amount)
            (.cons (.required "exitMoic" Ratio.codec)
              (.cons (.optional "hardCap" .amount) .nil))))))
    (fun (id, name, stage, invested, exitMultiple, hardCap, ()) =>
      { id, name, stage, invested, exitMultiple, hardCap })
    (fun company =>
      (company.id, company.name, company.stage, company.invested,
        company.exitMultiple, company.hardCap, ()))

/-- Stage policies; the weight is one if it is missing. -/
def StagePolicy.codec : Codec StagePolicy :=
  Codec.record "StagePolicy"
    (.cons (.required "stage" .string)
      (.cons (.required "reserveMultiple" Ratio.codec)
        (.cons (.defaulted "priorityWeight" Ratio.codec Ratio.one)
          .nil)))
    (fun (stage, reserveMultiple, priorityWeight, ()) =>
      { stage, reserveMultiple, priorityWeight })
    (fun policy =>
      (policy.stage, policy.reserveMultiple,
        policy.priorityWeight, ()))

def Constraints.codec : Codec Constraints :=
  Codec.record "Constraints"
    (.cons (.optional "minReserve" .amount)
      (.cons (.optional "maxReserve" .amount)
        (.cons
          (.optional "targetReserveHorizonMonths" .smallCount)
          (.cons (.optional "maxConcentration" Ratio.codec) .nil))))
    (fun (minReserve, maxReserve, horizonMonths, maxShare, ()) =>
      { minReserve, maxReserve, horizonMonths, maxShare })
    (fun constraints =>
      (constraints.minReserve, constraints.maxReserve,
        constraints.horizonMonths, constraints.maxShare, ()))

/-- Requests; policies and constraints may be missing. -/
def Request.codec : Codec Request :=
  Codec.record "ReserveInput"
    (.cons (.required "companies" Company.codec.list)
      (.cons (.required "availableReserves" .amount)
        (.cons (.defaulted "stagePolicies" StagePolicy.codec.list [])
          (.cons
            (.defaulted "constraints" Constraints.codec
              Constraints.none)
            .nil))))
    (fun (companies, available, policies, constraints, ()) =>
      { companies, available, policies, constraints })
    (fun request =>
      (request.companies, request.available, request.policies,
        request.constraints, ()))

/-- The value that a text holds, or the fault of reading it. -/
def readText
    (codec : Codec α)
    (text : String) :
    Except RequestFault α :=
  (codec.decode text).mapError RequestFault.unreadable

def Request.ofText (text : String) : Except RequestFault Request :=
  readText Request.codec text

def Request.toText (request : Request) : String :=
  Request.codec.encode request

end FollowOn

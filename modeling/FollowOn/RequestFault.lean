import FollowOn.Json.Fault
import FollowOn.Ratio

namespace FollowOn

/-!
# Faults of a reserve request

Why a request is turned down, before anything is allocated. Each fault names
its cause and what it concerns; `RequestFault.message` puts it into words and
`RequestFault.kind` sorts it into one of two kinds.
-/

/-- What is wrong with one company. -/
inductive CompanyIssue where
  | blankId
  | negativeInvested (amount : Int)
  | negativeHardCap (amount : Int)
  /-- Any other reason, in the words of the caller. -/
  | remark (text : String)
deriving Repr, DecidableEq

/-- What is wrong with one stage policy. -/
inductive PolicyIssue where
  | blankStage
  | negativeMultiple (stage : String)
  | negativeWeight (stage : String)
  /-- Any other reason, in the words of the caller. -/
  | remark (text : String)
deriving Repr, DecidableEq

/-- What is wrong with the constraints. -/
inductive ConstraintIssue where
  | negativeMinReserve
  | negativeMaxReserve
  | minExceedsMax (least greatest : Int)
  /-- The greatest share of one company is not in (0, 1]. -/
  | shareOutOfRange (share : Ratio)
  /-- Any other reason, in the words of the caller. -/
  | remark (text : String)
deriving Repr, DecidableEq

/-- Why a reserve request is turned down. -/
inductive RequestFault where
  | noCompanies
  | duplicateCompany (id : String)
  | invalidCompany (id : String) (issue : CompanyIssue)
  | negativeCapital (available : Int)
  | invalidPolicy (issue : PolicyIssue)
  | duplicatePolicy (stage : String)
  | invalidConstraints (issue : ConstraintIssue)
  | invalidRatio (issue : RatioIssue)
  /-- The text of the request holds no request. -/
  | unreadable (fault : Json.Fault)
deriving Repr, DecidableEq

inductive FaultKind where
  /-- The request says something that cannot be. -/
  | inputValidation
  /-- The request cannot be read. -/
  | serialization
deriving Repr, DecidableEq

def FaultKind.label : FaultKind → String
  | .inputValidation => "input_validation"
  | .serialization => "serialization"

def CompanyIssue.message : CompanyIssue → String
  | .blankId => "id must not be empty"
  | .negativeInvested amount =>
      s!"invested amount must not be negative, got {amount}"
  | .negativeHardCap amount =>
      s!"hard cap must not be negative, got {amount}"
  | .remark text => text

def PolicyIssue.message : PolicyIssue → String
  | .blankStage => "stage key must not be empty"
  | .negativeMultiple stage =>
      s!"reserve multiple for {stage} must not be negative"
  | .negativeWeight stage =>
      s!"priority weight for {stage} must not be negative"
  | .remark text => text

def ConstraintIssue.message : ConstraintIssue → String
  | .negativeMinReserve => "min reserve must not be negative"
  | .negativeMaxReserve => "max reserve must not be negative"
  | .minExceedsMax least greatest =>
      s!"min reserve {least} exceeds max reserve {greatest}"
  | .shareOutOfRange share =>
      let value := share.toBinary64.describe
      s!"max concentration must be in (0, 1], got {value}"
  | .remark text => text

namespace RequestFault

def kind : RequestFault → FaultKind
  | .unreadable _ => .serialization
  | _ => .inputValidation

def message : RequestFault → String
  | .noCompanies => "Company list is empty"
  | .duplicateCompany id => s!"Duplicate company id: {id}"
  | .invalidCompany id issue =>
      s!"Invalid company {id}: {issue.message}"
  | .negativeCapital available =>
      s!"Available reserves must not be negative, got {available}"
  | .invalidPolicy issue =>
      s!"Invalid stage policy: {issue.message}"
  | .duplicatePolicy stage =>
      s!"Duplicate stage policy: {stage}"
  | .invalidConstraints issue =>
      s!"Invalid constraints: {issue.message}"
  | .invalidRatio issue =>
      s!"Invalid ratio: {issue.message}"
  | .unreadable fault =>
      s!"Serialization error: {fault.message}"

end RequestFault

end FollowOn

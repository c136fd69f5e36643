import FollowOn.Schema.Plan
import FollowOn.Schema.Portfolio

namespace FollowOn

/-!
# Request forms

A form is a request filled in with floating-point numbers in place of ratios.
Nothing about it is checked or rounded until it is submitted: submitting turns
its numbers into ratios in a fixed order, then settles the options, then plans
the request. What goes wrong is a `FormFault`; what comes of it otherwise is a
`Receipt`, which holds the plan as attributes and as text.
-/

structure CompanyForm where
  id : String
  name : String
  stage : String
  invested : Int
  exitMultiple : Binary64
  hardCap : Option Int
deriving Repr, DecidableEq

structure PolicyForm where
  stage : String
  reserveMultiple : Binary64
  priorityWeight : Binary64
deriving Repr, DecidableEq

structure ConstraintForm where
  minReserve : Option Int
  maxReserve : Option Int
  horizonMonths : Option Nat
  maxShare : Option Binary64
deriving Repr, DecidableEq

/-- How a form is to be planned. -/
structure FormOptions where
  maxRemainderPasses : Nat
  /-- Name of a rule of sharing. -/
  sharing : String
  /-- Name of a strategy. -/
  strategy : String
deriving Repr, DecidableEq

def FormOptions.standard : FormOptions where
  maxRemainderPasses := Settings.standard.maxRemainderPasses
  sharing := Settings.standard.sharing.label
  strategy := Strategy.standard.name

/-- A request with floating-point numbers, and the options of its plan. -/
structure Form where
  companies : List CompanyForm
  available : Int
  policies : List PolicyForm
  constraints : Option ConstraintForm
  options : FormOptions
deriving Repr, DecidableEq

/-- Why a form is not planned. -/
inductive FormFault where
  | unknownSharing (name : String)
  | unknownStrategy (name : String)
  | rejected (fault : RequestFault)
deriving Repr, DecidableEq

/-- The fault in words; a rejected request shows the kind of its fault. -/
def FormFault.message : FormFault → String
  | .unknownSharing name => s!"Unknown pass mode: {name}"
  | .unknownStrategy name => s!"Unknown strategy: {name}"
  | .rejected fault => s!"{fault.kind.label}: {fault.message}"

/-- A number of a form as a ratio. -/
def formRatio (value : Binary64) : Except RequestFault Ratio :=
  (Ratio.ofBinary64? value).mapError RequestFault.invalidRatio

def CompanyForm.toCompany
    (form : CompanyForm) :
    Except RequestFault Company := do
  let exitMultiple ← formRatio form.exitMultiple
  .ok
    { id := form.id
      name := form.name
      stage := form.stage
      invested := form.invested
      exitMultiple := exitMultiple
      hardCap := form.hardCap }

/-- The policy of a form; its multiple is rounded before its weight. -/
def PolicyForm.toPolicy
    (form : PolicyForm) :
    Except RequestFault StagePolicy := do
  let reserveMultiple ← formRatio form.reserveMultiple
  let priorityWeight ← formRatio form.priorityWeight
  .ok
    { stage := form.stage
      reserveMultiple := reserveMultiple
      priorityWeight := priorityWeight }

/-- The constraints of a form. -/
def ConstraintForm.toConstraints
    (form : ConstraintForm) :
    Except RequestFault Constraints := do
  let maxShare ← form.maxShare.mapM formRatio
  .ok
    { minReserve := form.minReserve
      maxReserve := form.maxReserve
      horizonMonths := form.horizonMonths
      maxShare := maxShare }

/-- The settings and the strategy that options name; the sharing comes first. -/
def FormOptions.toStrategy
    (options : FormOptions) :
    Except FormFault Strategy := do
  let sharing ←
    match SharingRule.all.find? (fun rule => rule.label == options.sharing) with
    | some rule => .ok rule
    | none => .error (.unknownSharing options.sharing)
  let settings :=
    (Settings.standard.withRemainderPasses
      options.maxRemainderPasses).withSharing sharing
  match Strategy.ofName? settings options.strategy with
  | some strategy => .ok strategy
  | none => .error (.unknownStrategy options.strategy)

/-- What a receipt says about one company. -/
structure ReceiptLine where
  companyId : String
  planned : Int
  cap : Int
  /-- Label of the reason. -/
  reason : String
  pass : Nat
  policyDefaulted : Bool
deriving Repr, DecidableEq

/-- What is handed out for a form that is planned. -/
structure Receipt where
  allocated : Int
  remaining : Int
  available : Int
  fundedCount : Nat
  conserved : Bool
  passes : Nat
  ranking : List String
  /-- One line for each company, in ranking order. -/
  lines : List ReceiptLine
  /-- The whole plan as text. -/
  text : String
deriving Repr, DecidableEq

def Allocation.receiptLine (allocation : Allocation) : ReceiptLine where
  companyId := allocation.companyId
  planned := allocation.planned
  cap := allocation.cap
  reason := allocation.reason.label
  pass := allocation.pass
  policyDefaulted := allocation.policyDefaulted

def Plan.receipt (plan : Plan) : Receipt where
  allocated := plan.allocated
  remaining := plan.remaining
  available := plan.summary.available
  fundedCount := plan.summary.fundedCount
  conserved := plan.summary.conserved
  passes := plan.summary.passes
  ranking := plan.summary.ranking
  lines := plan.allocations.map Allocation.receiptLine
  text := plan.toText

namespace Form

/-- The request of a form: companies, then policies, then constraints. -/
def toRequest (form : Form) : Except RequestFault Request := do
  let companies ← form.companies.mapM CompanyForm.toCompany
  let policies ← form.policies.mapM PolicyForm.toPolicy
  let constraints ← form.constraints.mapM ConstraintForm.toConstraints
  .ok
    { companies := companies
      available := form.available
      policies := policies
      constraints := constraints.getD Constraints.none }

def submit (form : Form) : Except FormFault Plan := do
  let request ← form.toRequest.mapError FormFault.rejected
  let strategy ← form.options.toStrategy
  (strategy.plan request).mapError FormFault.rejected

def receipt (form : Form) : Except FormFault Receipt :=
  form.submit.map Plan.receipt

end Form

/-- The text of the usual plan for a request given as text. -/
def planText (text : String) : Except FormFault String :=
  (do
    let request ← Request.ofText text
    let plan ← Strategy.standard.plan request
    .ok plan.toText).mapError FormFault.rejected

def CompanyForm.describe (form : CompanyForm) : String :=
  let multiple := form.exitMultiple.withTwoPlaces
  s!"Company(id={form.id}, stage={form.stage}, invested={form.invested}, exit_moic={multiple})"

def ReceiptLine.describe (line : ReceiptLine) : String :=
  s!"AllocationRecord(company={line.companyId}, planned={line.planned}, cap={line.cap}, reason={line.reason})"

def Receipt.describe (receipt : Receipt) : String :=
  s!"EngineResult(allocated={receipt.allocated}, remaining={receipt.remaining}, funded={receipt.fundedCount}, conservation_ok={receipt.conserved})"

end FollowOn

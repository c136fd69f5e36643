import FollowOn.Form
import FollowOn.Proofs.Schema.Requests
import FollowOn.Proofs.Validation

namespace FollowOn

/-!
# Ways to have a request planned

A request can be planned as it stands, sent as a text, or filled into a form.
If its numbers come through a text they come through a form as well, since both
ways round a ratio to the same floating-point number. So the three ways end
alike: with the same plan or with the same fault, whatever the request says.
-/

/-- The form of a company, with the number closest to its exit multiple. -/
def Company.form (company : Company) : CompanyForm where
  id := company.id
  name := company.name
  stage := company.stage
  invested := company.invested
  exitMultiple := company.exitMultiple.toBinary64
  hardCap := company.hardCap

/-- The form of a policy, with the numbers closest to its ratios. -/
def StagePolicy.form (policy : StagePolicy) : PolicyForm where
  stage := policy.stage
  reserveMultiple := policy.reserveMultiple.toBinary64
  priorityWeight := policy.priorityWeight.toBinary64

/-- The form of constraints, with the number closest to the greatest share. -/
def Constraints.form (constraints : Constraints) : ConstraintForm where
  minReserve := constraints.minReserve
  maxReserve := constraints.maxReserve
  horizonMonths := constraints.horizonMonths
  maxShare := constraints.maxShare.map Ratio.toBinary64

/-- A form that is filled in with a request; absent constraints need not be. -/
structure Form.IsOf (form : Form) (request : Request) : Prop where
  companies_eq : form.companies = request.companies.map Company.form
  available_eq : form.available = request.available
  policies_eq : form.policies = request.policies.map StagePolicy.form
  constraints_of :
    form.constraints = some request.constraints.form ∨
      form.constraints = none ∧ request.constraints = Constraints.none

/-- The form of a request with all that the request says. -/
def Request.form
    (options : FormOptions)
    (request : Request) :
    Form where
  companies := request.companies.map Company.form
  available := request.available
  policies := request.policies.map StagePolicy.form
  constraints := some request.constraints.form
  options := options

/-- The form that is filled in from a request is a form of it. -/
theorem Request.form_isOf
    (options : FormOptions)
    (request : Request) :
    (request.form options).IsOf request :=
  ⟨rfl, rfl, rfl, Or.inl rfl⟩

section ToRequest

/-- A moderate ratio goes through a form unchanged. -/
theorem formRatio_toBinary64
    {ratio : Ratio}
    (moderate : ratio.IsModerate) :
    formRatio ratio.toBinary64 = .ok ratio := by
  rw [formRatio, moderate.ofBinary64?_toBinary64]
  rfl

/-- A company form whose number is a ratio becomes a company. -/
theorem CompanyForm.toCompany_eq
    {form : CompanyForm}
    {multiple : Ratio}
    (read : formRatio form.exitMultiple = .ok multiple) :
    form.toCompany =
      .ok
        { id := form.id
          name := form.name
          stage := form.stage
          invested := form.invested
          exitMultiple := multiple
          hardCap := form.hardCap } := by
  simp only [toCompany, read, bind, Except.bind]

/-- A company goes through its form unchanged. -/
theorem Company.toCompany_form
    {company : Company}
    (portable : company.IsPortable) :
    company.form.toCompany = .ok company :=
  CompanyForm.toCompany_eq
    (formRatio_toBinary64 portable.exitMultiple_moderate)

/-- A policy form whose numbers are ratios becomes a policy. -/
theorem PolicyForm.toPolicy_eq
    {form : PolicyForm}
    {multiple weight : Ratio}
    (readMultiple : formRatio form.reserveMultiple = .ok multiple)
    (readWeight : formRatio form.priorityWeight = .ok weight) :
    form.toPolicy =
      .ok
        { stage := form.stage
          reserveMultiple := multiple
          priorityWeight := weight } := by
  simp only [toPolicy, readMultiple, readWeight, bind, Except.bind]

/-- A policy goes through its form unchanged. -/
theorem StagePolicy.toPolicy_form
    {policy : StagePolicy}
    (portable : policy.IsPortable) :
    policy.form.toPolicy = .ok policy :=
  PolicyForm.toPolicy_eq
    (formRatio_toBinary64 portable.reserveMultiple_moderate)
    (formRatio_toBinary64 portable.priorityWeight_moderate)

/-- A form of constraints whose number is a ratio becomes constraints. -/
theorem ConstraintForm.toConstraints_eq
    {form : ConstraintForm}
    {share : Option Ratio}
    (read : form.maxShare.mapM formRatio = .ok share) :
    form.toConstraints =
      .ok
        { minReserve := form.minReserve
          maxReserve := form.maxReserve
          horizonMonths := form.horizonMonths
          maxShare := share } := by
  simp only [toConstraints, read, bind, Except.bind]

/-- A share that may be absent goes through a form unchanged. -/
theorem mapM_formRatio_map_toBinary64
    {ratio : Option Ratio}
    (moderate : ∀ share ∈ ratio, share.IsModerate) :
    (ratio.map Ratio.toBinary64).mapM formRatio = .ok ratio := by
  cases ratio with
  | none => rfl
  | some share =>
      have read := formRatio_toBinary64 (moderate share rfl)
      rw [Option.map_some, Option.mapM_some, read]
      rfl

/-- Constraints go through their form unchanged. -/
theorem Constraints.toConstraints_form
    {constraints : Constraints}
    (portable : constraints.IsPortable) :
    constraints.form.toConstraints = .ok constraints :=
  ConstraintForm.toConstraints_eq
    (mapM_formRatio_map_toBinary64 portable.maxShare_moderate)

/-- Values that are each read back from their forms are read back in their order. -/
theorem mapM_map_eq_ok
    {fill : α → β}
    {read : β → Except ε α}
    {values : List α}
    (readBack : ∀ value ∈ values, read (fill value) = .ok value) :
    (values.map fill).mapM read = .ok values := by
  induction values with
  | nil => rfl
  | cons value values inductionHypothesis =>
      obtain ⟨readFirst, readOthers⟩ := List.forall_mem_cons.mp readBack
      rw [List.map_cons, List.mapM_cons, readFirst,
        inductionHypothesis readOthers]
      rfl

variable
    {form : Form}
    {request : Request}
    (portable : request.IsPortable)
    (isForm : form.IsOf request)

include portable isForm

/-- Constraints that are left out of a form are no constraints. -/
theorem Form.IsOf.constraints_eq :
    (form.constraints.mapM ConstraintForm.toConstraints).map
        (·.getD Constraints.none) =
      .ok request.constraints := by
  rcases isForm.constraints_of with filled | ⟨absent, isNone⟩
  · rw [filled, Option.mapM_some,
      Constraints.toConstraints_form portable.constraints_portable]
    rfl
  · rw [absent, isNone]
    rfl

/-- A form is turned into the request that it is filled in with. -/
theorem Form.IsOf.toRequest_eq :
    form.toRequest = .ok request := by
  have companies :=
    mapM_map_eq_ok fun company member =>
      Company.toCompany_form
        (portable.companies_portable company member)
  have policies :=
    mapM_map_eq_ok fun policy member =>
      StagePolicy.toPolicy_form
        (portable.policies_portable policy member)
  have constraints := isForm.constraints_eq portable
  rw [Form.toRequest, isForm.companies_eq, isForm.policies_eq,
    isForm.available_eq, companies, policies]
  cases read : form.constraints.mapM ConstraintForm.toConstraints with
  | error fault =>
      rw [read] at constraints
      cases constraints
  | ok found =>
      rw [read] at constraints
      injection constraints with sameConstraints
      simp only [bind, Except.bind, sameConstraints]

end ToRequest

/-- Options name a strategy: its settings are the usual ones but for passes and sharing. -/
inductive FormOptions.Names : FormOptions → Strategy → Prop
  | constrained
      (passes : Nat)
      (rule : SharingRule) :
      Names ⟨passes, rule.label, "constrained"⟩
        (.constrained
          { Settings.standard with
            maxRemainderPasses := min passes 8
            sharing := rule })
  | proRata
      (passes : Nat)
      (rule : SharingRule) :
      Names ⟨passes, rule.label, "pro_rata"⟩
        (.proRata
          { Settings.standard with
            maxRemainderPasses := min passes 8
            sharing := rule })

/-- The options that are usual name the strategy that is usual. -/
theorem FormOptions.names_standard :
    FormOptions.standard.Names Strategy.standard :=
  .constrained 2 .greedy

/-- Options that name a strategy are taken as that strategy. -/
theorem FormOptions.Names.toStrategy_eq
    {options : FormOptions}
    {strategy : Strategy}
    (names : options.Names strategy) :
    options.toStrategy = .ok strategy := by
  cases names with
  | constrained passes rule => cases rule <;> rfl
  | proRata passes rule => cases rule <;> rfl

/-- A form with options that name a strategy ends as the strategy does. -/
theorem Form.IsOf.receipt_eq
    {form : Form}
    {request : Request}
    (portable : request.IsPortable)
    (isForm : form.IsOf request)
    {strategy : Strategy}
    (names : form.options.Names strategy) :
    form.receipt =
      ((strategy.plan request).map Plan.receipt).mapError
        FormFault.rejected := by
  have submitted :
      form.submit =
        (strategy.plan request).mapError FormFault.rejected := by
    rw [submit, isForm.toRequest_eq portable, names.toStrategy_eq]
    rfl
  rw [receipt, submitted]
  cases strategy.plan request <;> rfl

/-- A line holds all that an allocation says. -/
structure ReceiptLine.Shows
    (line : ReceiptLine)
    (allocation : Allocation) : Prop where
  companyId_eq : line.companyId = allocation.companyId
  planned_eq : line.planned = allocation.planned
  cap_eq : line.cap = allocation.cap
  reason_eq : line.reason = allocation.reason.label
  pass_eq : line.pass = allocation.pass
  policyDefaulted_eq :
    line.policyDefaulted = allocation.policyDefaulted

/-- A receipt holds the totals of a plan, a line for each allocation, and its text. -/
structure Receipt.Shows
    (receipt : Receipt)
    (plan : Plan) : Prop where
  allocated_eq : receipt.allocated = plan.allocated
  remaining_eq : receipt.remaining = plan.remaining
  available_eq : receipt.available = plan.summary.available
  fundedCount_eq : receipt.fundedCount = plan.summary.fundedCount
  conserved_eq : receipt.conserved = plan.summary.conserved
  passes_eq : receipt.passes = plan.summary.passes
  ranking_eq : receipt.ranking = plan.summary.ranking
  lines_show :
    List.Forall₂ ReceiptLine.Shows receipt.lines plan.allocations
  text_eq : receipt.text = plan.toText

/-- A receipt shows its plan. -/
theorem Plan.receipt_shows
    (plan : Plan) :
    plan.receipt.Shows plan where
  allocated_eq := rfl
  remaining_eq := rfl
  available_eq := rfl
  fundedCount_eq := rfl
  conserved_eq := rfl
  passes_eq := rfl
  ranking_eq := rfl
  lines_show := by
    rw [receipt, List.forall₂_map_left_iff, List.forall₂_same]
    exact fun _ _ => ⟨rfl, rfl, rfl, rfl, rfl, rfl⟩
  text_eq := rfl

/-- Two outcomes of one request: a plan and what shows it, or the same fault, told with its kind. -/
inductive EndsAlike (shows : α → Plan → Prop) :
    Except FormFault α → Except RequestFault Plan → Prop
  | planned
      {result : α}
      {plan : Plan}
      (shown : shows result plan) :
      EndsAlike shows (.ok result) (.ok plan)
  | failed
      {fault : RequestFault}
      (inWords :
        (FormFault.rejected fault).message =
          fault.kind.label ++ ": " ++ fault.message) :
      EndsAlike shows (.error (.rejected fault)) (.error fault)

/-- What is made of the outcome of a strategy ends as the strategy does. -/
theorem EndsAlike.of_map
    {shows : α → Plan → Prop}
    {result : Plan → α}
    (shown : ∀ plan, shows (result plan) plan)
    (outcome : Except RequestFault Plan) :
    EndsAlike shows
      ((outcome.map result).mapError FormFault.rejected) outcome := by
  cases outcome with
  | error fault => exact .failed rfl
  | ok plan => exact .planned (shown plan)

/--
All ways to have a request planned end alike.

If the numbers of a request come through a text, the text, the form with the
usual options, and the request itself are planned alike or fail with the same
fault, and a form with other options ends as the strategy that they name. The
request need not be valid.
-/
theorem Request.ways_end_alike
    {request : Request}
    (portable : request.IsPortable)
    {form : Form}
    (isForm : form.IsOf request) :
    EndsAlike (fun text plan => text = plan.toText)
        (planText request.toText) (Strategy.standard.plan request) ∧
      EndsAlike Receipt.Shows
        { form with options := FormOptions.standard }.receipt
        (Strategy.standard.plan request) ∧
      ∀ options strategy,
        options.Names strategy →
        EndsAlike Receipt.Shows { form with options }.receipt
          (strategy.plan request) := by
  have withOptions :
      ∀ options strategy,
        options.Names strategy →
        EndsAlike Receipt.Shows { form with options }.receipt
          (strategy.plan request) := by
    intro options strategy names
    have isFormToo : { form with options }.IsOf request :=
      ⟨isForm.companies_eq, isForm.available_eq, isForm.policies_eq,
        isForm.constraints_of⟩
    rw [isFormToo.receipt_eq portable names]
    exact .of_map Plan.receipt_shows _
  have asText :
      planText request.toText =
        ((Strategy.standard.plan request).map Plan.toText).mapError
          FormFault.rejected := by
    simp only [planText, portable.ofText_toText, bind, Except.bind]
    cases Strategy.standard.plan request <;> rfl
  have textAlike :
      EndsAlike (fun text plan => text = plan.toText)
        (planText request.toText) (Strategy.standard.plan request) := by
    rw [asText]
    exact .of_map (fun plan => Eq.refl plan.toText) _
  exact
    ⟨textAlike, withOptions _ _ FormOptions.names_standard,
      withOptions⟩

/-- The numbers of the three companies come through a text. -/
theorem Request.threeSeeds_isPortable :
    threeSeeds.IsPortable where
  companies_portable := by
    intro company member
    simp only [threeSeeds, List.mem_cons, List.not_mem_nil,
      or_false] at member
    rcases member with isFirst | isSecond | isThird
    · rw [isFirst]
      exact ⟨by decide, by decide, by rintro _ ⟨⟩⟩
    · rw [isSecond]
      exact ⟨by decide, by decide, by rintro _ ⟨⟩⟩
    · rw [isThird]
      exact ⟨by decide, by decide, by rintro _ ⟨⟩; decide⟩
  available_inRange := by decide
  policies_portable := by
    intro policy member
    rw [List.mem_singleton.mp member]
    exact ⟨by decide, by decide⟩
  constraints_portable := by
    refine ⟨?_, ?_, ?_, ?_⟩ <;> rintro _ ⟨⟩
    decide

/-- Three seed companies are planned alike; two that share an id fail alike. -/
theorem Request.ways_end_alike_threeSeeds :
    (∃ plan,
      Strategy.standard.plan threeSeeds = .ok plan ∧
        planText threeSeeds.toText = .ok plan.toText) ∧
      (∃ fault,
        Strategy.standard.plan outermost = .error fault ∧
          planText outermost.toText = .error (.rejected fault)) ∧
      EndsAlike Receipt.Shows
        (outermost.form ⟨2 ^ 32 - 1, "even_share", "pro_rata"⟩).receipt
        ((Strategy.proRata ⟨8, 1, .evenShare⟩).plan outermost) := by
  obtain ⟨seedsAlike, -, -⟩ :=
    ways_end_alike threeSeeds_isPortable
      (threeSeeds.form_isOf .standard)
  obtain ⟨alike, -, withOptions⟩ :=
    ways_end_alike outermost_isPortable
      (outermost.form_isOf .standard)
  have planned :
      Strategy.standard.plan threeSeeds =
        .ok (Strategy.standard.planValid threeSeeds) :=
    Strategy.plan_eq_ok_iff.mpr ⟨validate_threeSeeds, rfl⟩
  have rejected :
      Strategy.standard.plan outermost =
        .error
          (.invalidCompany "\"" (.negativeInvested Amount.least)) :=
    Strategy.plan_eq_error_iff.mpr (by decide)
  rw [planned] at seedsAlike
  rw [rejected] at alike
  refine
    ⟨⟨_, planned, ?_⟩, ⟨_, rejected, ?_⟩,
      withOptions _ _ (.proRata (2 ^ 32 - 1) .evenShare)⟩
  · generalize planText threeSeeds.toText = answer at seedsAlike ⊢
    cases seedsAlike with
    | planned shown => exact congrArg Except.ok shown
  · generalize planText outermost.toText = answer at alike ⊢
    cases alike with
    | failed _ => rfl

end FollowOn

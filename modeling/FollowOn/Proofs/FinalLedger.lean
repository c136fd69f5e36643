import FollowOn.Proofs.Ledger.Rest
import FollowOn.Proofs.Validation
import FollowOn.Strategy

namespace FollowOn

/-!
# The ledger that a strategy ends with

Whatever its passes are, a strategy ends with a ledger that continues its
opening ledger: sound, with the same capital, minimum, rule of sharing and
terms. So every account of it still has the cap that its company was given,
and it holds all the capital that was available. It is at rest if the last
pass was greedy, or if the remainder passes did not use up their limit.
-/

namespace Request

variable
    {request : Request}

/-- The least first check of a request; zero allows any. -/
def minimum (request : Request) : Int :=
  max 0 (request.constraints.minReserve.getD 0)

/-- A positive minimum is one that the request sets. -/
theorem minReserve_eq_of_minimum_pos
    (positive : 0 < request.minimum) :
    request.constraints.minReserve = some request.minimum := by
  unfold minimum at positive ⊢
  cases set : request.constraints.minReserve with
  | none =>
      rw [set] at positive
      exact (Int.lt_irrefl 0 positive).elim
  | some least =>
      rw [set] at positive
      simp only [Option.getD_some] at positive ⊢
      rw [Int.max_eq_right (by omega)]

/-- The minimum of the ledger is not below the one that the request sets. -/
theorem le_minimum_of_minReserve
    {least : Int}
    (set : request.constraints.minReserve = some least) :
    least ≤ request.minimum := by
  unfold minimum
  rw [set]
  exact Int.le_max_right 0 least

/-- Where the request sets no positive minimum, there is none. -/
theorem minimum_eq_zero
    (unset :
      ∀ least,
        request.constraints.minReserve = some least → least ≤ 0) :
    request.minimum = 0 := by
  unfold minimum
  cases set : request.constraints.minReserve with
  | none =>
      rfl
  | some least =>
      exact Int.max_eq_left (unset least set)

/-- The ledger of a request has the minimum of the request. -/
@[simp] theorem minimum_ledger :
    request.ledger.minimum = request.minimum := rfl

/-- Every account is a new one under the id and the cap of a company. -/
theorem exists_company_of_mem_accounts
    {account : Account}
    (member : account ∈ request.accounts) :
    ∃ company ∈ ranked request.companies,
      Account.opened company.id (request.capOf company) = account := by
  rw [accounts_eq_map] at member
  exact List.mem_map.mp member

/-- The accounts of a request are sound. -/
theorem sound_of_mem_accounts
    {account : Account}
    (member : account ∈ request.accounts) :
    account.Sound := by
  obtain ⟨company, -, same⟩ := exists_company_of_mem_accounts member
  rw [← same]
  exact Account.sound_opened company.id (request.capOf company)

/-- The accounts of a request are opened with nothing. -/
theorem granted_eq_zero_of_mem_accounts
    {account : Account}
    (member : account ∈ request.accounts) :
    account.granted = 0 := by
  obtain ⟨company, -, same⟩ := exists_company_of_mem_accounts member
  rw [← same]
  rfl

/-- An account has the cap of its company. -/
theorem cap_opened_capOf
    (request : Request)
    (company : Company) :
    (Account.opened company.id (request.capOf company)).cap =
      (request.capOf company).amount :=
  Int.max_eq_right (evaluateCap_amount_nonneg ..)

/-- Accounts with the terms of new ones belong to the companies, in ranking order. -/
theorem forall₂_terms_of_map_terms_eq
    {accounts : List Account}
    (kept :
      accounts.map Account.terms =
        request.accounts.map Account.terms) :
    List.Forall₂
      (fun company account =>
        account ∈ accounts ∧
          account.terms =
            (Account.opened company.id
              (request.capOf company)).terms)
      (ranked request.companies)
      accounts := by
  rw [Request.accounts_eq_map, List.map_map, ← List.forall₂_eq_eq_eq,
    List.forall₂_map_left_iff, List.forall₂_map_right_iff] at kept
  have withMembers :=
    (List.forall₂_and_left accounts _).mpr
      ⟨fun _ member => member, kept⟩
  exact withMembers.flip

/-- The ledger of a request has granted nothing. -/
theorem allocatedTotal_ledger :
    request.ledger.allocatedTotal = 0 := by
  have unpaid :
      request.accounts.map Account.granted =
        (ranked request.companies).map fun _ => 0 := by
    rw [accounts_eq_map, List.map_map]
    rfl
  change (request.accounts.map Account.granted).sum = 0
  rw [unpaid]
  simp

end Request

namespace Strategy

variable
    {strategy : Strategy}
    {request : Request}

/-- For a valid request the strategy returns its plan. -/
theorem plan_of_valid
    (valid : request.validate = .ok ())
    (strategy : Strategy) :
    strategy.plan request = .ok (strategy.planValid request) :=
  plan_eq_ok_iff.mpr ⟨valid, rfl⟩

/-- The ledger that a strategy starts its passes from. -/
def openingLedger
    (strategy : Strategy)
    (request : Request) :
    Ledger :=
  match strategy with
  | .constrained settings =>
      request.ledger.withSharing settings.sharing
  | .proRata _ => request.ledger

/-- What each pass keeps holds of the final ledger if it holds at the start. -/
theorem finalLedger_induction
    {motive : Ledger → Prop}
    (pass :
      ∀ before after,
        before.PassesTo after → motive before → motive after)
    (start : motive (strategy.openingLedger request)) :
    motive (strategy.finalLedger request) := by
  cases strategy with
  | constrained settings =>
      exact Ledger.redistribute_induction
        (fun ledger => pass ledger _ .shared)
        (pass _ _ .shared start) settings.remainderPasses
  | proRata settings =>
      have first := pass _ _ (.weighted request.weights) start
      simp only [finalLedger]
      split
      · exact pass _ _ .shared first
      · exact first

/-- The ledger with which a strategy starts is sound. -/
theorem sound_openingLedger
    (strategy : Strategy)
    (request : Request) :
    (strategy.openingLedger request).Sound := by
  have accountsSound :
      ∀ account ∈ request.accounts, account.Sound :=
    fun _ member => Request.sound_of_mem_accounts member
  have poolNotNegative := Int.le_max_left 0 request.available
  have minimumNotNegative :=
    Int.le_max_left 0 (request.constraints.minReserve.getD 0)
  cases strategy <;>
    exact ⟨poolNotNegative, minimumNotNegative, accountsSound⟩

/-- A strategy starts with the minimum of the request. -/
@[simp] theorem minimum_openingLedger :
    (strategy.openingLedger request).minimum = request.minimum := by
  cases strategy <;> rfl

/-- A strategy starts with the accounts of the request. -/
@[simp] theorem accounts_openingLedger :
    (strategy.openingLedger request).accounts = request.accounts := by
  cases strategy <;> rfl

/-- A strategy starts with all that is available. -/
theorem capital_openingLedger
    (notNegative : 0 ≤ request.available) :
    (strategy.openingLedger request).capital = request.available := by
  have pool : request.ledger.pool = request.available :=
    Int.max_eq_right notNegative
  have capital : request.ledger.capital = request.available := by
    rw [Ledger.capital, Request.allocatedTotal_ledger, pool,
      Int.add_zero]
  cases strategy <;> exact capital

/-- A strategy ends with a ledger that continues the one it starts from. -/
theorem continues_finalLedger
    (strategy : Strategy)
    (request : Request) :
    Ledger.Continues (strategy.openingLedger request)
      (strategy.finalLedger request) := by
  apply finalLedger_induction
  · intro before after pass continues
    exact continues.pass pass
  · exact (sound_openingLedger strategy request).continues

/-- A strategy does not change the minimum. -/
theorem minimum_finalLedger :
    (strategy.finalLedger request).minimum = request.minimum := by
  rw [(continues_finalLedger strategy request).minimum_eq,
    minimum_openingLedger]

/-- The accounts of the final ledger belong to the companies, in ranking order. -/
theorem forall₂_terms_finalLedger
    (strategy : Strategy)
    (request : Request) :
    List.Forall₂
      (fun company account =>
        account ∈ (strategy.finalLedger request).accounts ∧
          account.terms =
            (Account.opened company.id
              (request.capOf company)).terms)
      (ranked request.companies)
      (strategy.finalLedger request).accounts := by
  have kept := (continues_finalLedger strategy request).map_terms_eq
  rw [accounts_openingLedger] at kept
  exact Request.forall₂_terms_of_map_terms_eq kept

/-- The constrained strategy ends with a pass by its rule of sharing. -/
theorem exists_runPass_eq_finalLedger
    (settings : Settings)
    (request : Request) :
    ∃ before : Ledger,
      before.Sound ∧
        (Strategy.constrained settings).finalLedger request =
          before.runPass.1 := by
  have openingSound :=
    sound_openingLedger (.constrained settings) request
  refine
    Ledger.redistribute_induction
      (motive := fun ledger =>
        ∃ before : Ledger,
          before.Sound ∧ ledger = before.runPass.1)
      ?_ ⟨_, openingSound, rfl⟩ settings.remainderPasses
  rintro ledger ⟨before, sound, same⟩
  have ledgerSound : ledger.Sound := by
    rw [same]
    exact Ledger.PassesTo.shared.sound sound
  exact ⟨ledger, ledgerSound, rfl⟩

/-- Every strategy makes at least one pass. -/
theorem exists_passesTo_finalLedger
    (strategy : Strategy)
    (request : Request) :
    ∃ before : Ledger,
      before.Sound ∧
        before.PassesTo (strategy.finalLedger request) := by
  cases strategy with
  | constrained settings =>
      obtain ⟨before, sound, same⟩ :=
        exists_runPass_eq_finalLedger settings request
      refine ⟨before, sound, ?_⟩
      rw [same]
      exact .shared
  | proRata settings =>
      have openingSound :=
        sound_openingLedger (.proRata settings) request
      have first :
          request.ledger.PassesTo
            (request.ledger.runWeighted request.weights).1 :=
        .weighted request.weights
      simp only [finalLedger]
      split
      · exact ⟨_, first.sound openingSound, .shared⟩
      · exact ⟨request.ledger, openingSound, first⟩

/-- The last pass of a strategy is greedy, or would change nothing if it were. -/
def EndsGreedily : Strategy → Prop
  | .constrained settings => settings.sharing = .greedy
  | .proRata _ => True

/-- After a greedy pass there is nothing left to do. -/
theorem EndsGreedily.atRest_finalLedger
    (greedy : strategy.EndsGreedily)
    (request : Request) :
    (strategy.finalLedger request).AtRest := by
  have openingSound := sound_openingLedger strategy request
  cases strategy with
  | constrained settings =>
      have resting :=
        Ledger.atRest_runPass_of_greedy openingSound greedy
      obtain ⟨stop, unchanged⟩ :=
        resting.exists_redistribute_eq settings.remainderPasses
      simp only [openingLedger] at resting unchanged
      simp only [finalLedger, unchanged]
      exact resting
  | proRata settings =>
      have pass :
          Ledger.PassesTo request.ledger
            (request.ledger.runWeighted request.weights).1 :=
        .weighted request.weights
      have firstSound := pass.sound openingSound
      simp only [finalLedger]
      split
      · exact Ledger.atRest_runPass_of_greedy firstSound rfl
      · rename_i nothingOpen
        by_contra active
        exact nothingOpen (firstSound.not_atRest_iff.mp active)

/-- The constrained strategy runs one pass and then its remainder passes. -/
theorem passes_finalLedger
    (settings : Settings)
    (request : Request) :
    ((Strategy.constrained settings).finalLedger request).passes =
      1 + (Ledger.redistribute settings.remainderPasses
        (request.ledger.withSharing
          settings.sharing).runPass.1).2.passes :=
  Ledger.passes_redistribute _ _

/-- The constrained strategy ends at rest unless it uses up all its passes. -/
theorem atRest_or_passes_finalLedger
    (settings : Settings)
    (request : Request) :
    ((Strategy.constrained settings).finalLedger request).AtRest ∨
      ((Strategy.constrained settings).finalLedger request).passes =
        1 + settings.remainderPasses := by
  have pass :
      Ledger.PassesTo
        (request.ledger.withSharing settings.sharing)
        (request.ledger.withSharing settings.sharing).runPass.1 :=
    .shared
  have firstSound :=
    pass.sound (sound_openingLedger (.constrained settings) request)
  rw [passes_finalLedger]
  rcases Ledger.atRest_or_passes_eq_of_redistribute firstSound
      settings.remainderPasses with resting | usedUp
  · exact Or.inl resting
  · exact Or.inr (congrArg (1 + ·) usedUp)

end Strategy

end FollowOn

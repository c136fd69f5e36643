import FollowOn.Ledger.Command
import FollowOn.Proofs.Ledger.Offers

namespace FollowOn

/-!
# Histories of a ledger

A history is what a list of commands does to a ledger, pass by pass. Every
pass in it, also one among remainder passes, starts from a ledger that
commands reach. So what each pass and each setting keeps holds after any list
of commands, and what holds of a pass from any reachable ledger holds of each
pass in a history.
-/

namespace Account

/-- What no pass changes about an account. -/
structure Terms where
  companyId : String
  cap : Int
  capReason : Reason
  policyDefaulted : Bool
deriving Repr, DecidableEq

/-- The terms on which an account was opened. -/
def terms (account : Account) : Terms where
  companyId := account.companyId
  cap := account.cap
  capReason := account.capReason
  policyDefaulted := account.policyDefaulted

end Account

namespace Ledger

/-- One pass, of either kind, takes a ledger to the next. -/
inductive PassesTo (before : Ledger) : Ledger → Prop where
  | shared :
      PassesTo before before.runPass.1
  | weighted
      (weights : List Nat) :
      PassesTo before (before.runWeighted weights).1

namespace PassesTo

variable
    {before after : Ledger}

/-- A pass makes offers that suit its ledger. -/
theorem exists_offers
    (pass : before.PassesTo after)
    (sound : before.Sound) :
    ∃ offers,
      before.Suits offers ∧
        after = (before.runOffers offers).1 := by
  cases pass with
  | shared =>
      exact ⟨before.offers, suits_offers sound, rfl⟩
  | weighted weights =>
      exact ⟨before.weightedOffers weights,
        suits_weightedOffers weights before, rfl⟩

/-- A pass keeps the minimum. -/
theorem minimum_eq
    (pass : before.PassesTo after) :
    after.minimum = before.minimum := by
  cases pass <;> rfl

/-- A pass keeps the sharing rule. -/
theorem sharing_eq
    (pass : before.PassesTo after) :
    after.sharing = before.sharing := by
  cases pass <;> rfl

/-- A pass counts itself. -/
theorem passes_eq
    (pass : before.PassesTo after) :
    after.passes = before.passes + 1 := by
  cases pass <;> rfl

/-- A pass leads from a sound ledger to a sound one. -/
theorem sound
    (pass : before.PassesTo after)
    (beforeSound : before.Sound) :
    after.Sound := by
  obtain ⟨offers, suits, same⟩ := pass.exists_offers beforeSound
  rw [same]
  exact beforeSound.runOffers suits

/-- A pass moves money from the pool to the accounts and loses none. -/
theorem capital_eq
    (pass : before.PassesTo after)
    (sound : before.Sound) :
    after.capital = before.capital := by
  obtain ⟨offers, suits, same⟩ := pass.exists_offers sound
  rw [same]
  exact capital_runOffers suits

/-- A pass keeps the terms of each account, in their order. -/
theorem map_terms_eq
    (pass : before.PassesTo after)
    (sound : before.Sound) :
    after.accounts.map Account.terms =
      before.accounts.map Account.terms := by
  obtain ⟨offers, suits, same⟩ := pass.exists_offers sound
  rw [same, ← List.forall₂_eq_eq_eq, List.forall₂_map_left_iff,
    List.forall₂_map_right_iff]
  refine List.Forall₂.flip
    (forall₂_accounts_of_turns sound suits ?_)
  intro account offer turned _ hasTurn
  obtain ⟨pool, -, -, isTurn⟩ := hasTurn
  simp [flip, isTurn, Account.terms]

end PassesTo

/-- What passes keep of the ledger that they start from. -/
structure Continues (start ledger : Ledger) : Prop where
  sound : ledger.Sound
  capital_eq : ledger.capital = start.capital
  minimum_eq : ledger.minimum = start.minimum
  sharing_eq : ledger.sharing = start.sharing
  map_terms_eq :
    ledger.accounts.map Account.terms =
      start.accounts.map Account.terms

/-- A sound ledger continues itself. -/
theorem Sound.continues
    {ledger : Ledger}
    (sound : ledger.Sound) :
    Continues ledger ledger :=
  ⟨sound, rfl, rfl, rfl, rfl⟩

/-- A pass carries on from where the ledger stood at the start. -/
theorem Continues.pass
    {start before after : Ledger}
    (continues : Continues start before)
    (pass : before.PassesTo after) :
    Continues start after where
  sound := pass.sound continues.sound
  capital_eq :=
    (pass.capital_eq continues.sound).trans continues.capital_eq
  minimum_eq := pass.minimum_eq.trans continues.minimum_eq
  sharing_eq := pass.sharing_eq.trans continues.sharing_eq
  map_terms_eq :=
    (pass.map_terms_eq continues.sound).trans continues.map_terms_eq

/-- Without a pass allowed, the remainder is left alone. -/
theorem redistribute_zero
    (ledger : Ledger) :
    (redistribute 0 ledger).1 = ledger := by
  cases resting : ledger.atRest? <;>
    simp [redistribute, resting]

/-- A ledger that is not at rest runs a pass, and goes on if it moved anything. -/
theorem redistribute_succ
    {ledger : Ledger}
    (active : ledger.atRest? = none)
    (left : Nat) :
    redistribute (left + 1) ledger =
      if ledger.runPass.2.allocated = 0 then
        (ledger.runPass.1, ⟨1, 0, .noProgress⟩)
      else
        ((redistribute left ledger.runPass.1).1,
          (redistribute left ledger.runPass.1).2.after
            ledger.runPass.2) := by
  simp [redistribute, active]

/-- What every pass of the rule of sharing keeps, remainder passes keep. -/
theorem redistribute_induction
    {motive : Ledger → Prop}
    (pass : ∀ ledger, motive ledger → motive ledger.runPass.1)
    {ledger : Ledger}
    (start : motive ledger)
    (limit : Nat) :
    motive (redistribute limit ledger).1 := by
  induction limit generalizing ledger with
  | zero =>
      rw [redistribute_zero]
      exact start
  | succ left inductionHypothesis =>
      cases resting : ledger.atRest? with
      | some stop =>
          rw [redistribute_of_atRest resting]
          exact start
      | none =>
          have next := pass ledger start
          rw [redistribute_succ resting]
          split
          · exact next
          · exact inductionHypothesis next

/-- What passes and changes of the settings preserve, each command preserves. -/
theorem perform_induction
    {motive : Ledger → Prop}
    (pass :
      ∀ before after,
        before.PassesTo after → motive before → motive after)
    (setMinimum :
      ∀ ledger minimum,
        motive ledger → motive (ledger.withMinimum minimum))
    (setSharing :
      ∀ ledger sharing,
        motive ledger → motive (ledger.withSharing sharing))
    {ledger : Ledger}
    (start : motive ledger)
    (command : LedgerCommand) :
    motive (ledger.perform command).1 := by
  cases command with
  | pass =>
      exact pass ledger _ .shared start
  | weighted weights =>
      exact pass ledger _ (.weighted weights) start
  | redistribute limit =>
      exact redistribute_induction
        (fun current => pass current _ .shared) start limit
  | setMinimum minimum =>
      exact setMinimum ledger minimum start
  | setSharing sharing =>
      exact setSharing ledger sharing start

/-- What every pass and every setting keeps, commands keep. -/
theorem performAll_induction
    {motive : Ledger → Prop}
    (pass :
      ∀ before after,
        before.PassesTo after → motive before → motive after)
    (setMinimum :
      ∀ ledger minimum,
        motive ledger → motive (ledger.withMinimum minimum))
    (setSharing :
      ∀ ledger sharing,
        motive ledger → motive (ledger.withSharing sharing))
    {ledger : Ledger}
    (start : motive ledger)
    (commands : List LedgerCommand) :
    motive (ledger.performAll commands) := by
  induction commands generalizing ledger with
  | nil =>
      exact start
  | cons command rest inductionHypothesis =>
      exact inductionHypothesis
        (perform_induction pass setMinimum setSharing start command)

/-- Another minimum leaves a ledger sound. -/
theorem Sound.withMinimum
    {ledger : Ledger}
    (sound : ledger.Sound)
    (minimum : Option Int) :
    (ledger.withMinimum minimum).Sound :=
  ⟨sound.pool_nonneg, Int.le_max_left 0 _, sound.accounts_sound⟩

/-- Another sharing rule leaves a ledger sound. -/
theorem Sound.withSharing
    {ledger : Ledger}
    (sound : ledger.Sound)
    (sharing : SharingRule) :
    (ledger.withSharing sharing).Sound :=
  ⟨sound.pool_nonneg, sound.minimum_nonneg, sound.accounts_sound⟩

/-- Commands lead from a sound ledger to a sound one. -/
theorem Sound.performAll
    {ledger : Ledger}
    (sound : ledger.Sound)
    (commands : List LedgerCommand) :
    (ledger.performAll commands).Sound :=
  performAll_induction
    (fun _ _ pass beforeSound => pass.sound beforeSound)
    (fun _ minimum currentSound => currentSound.withMinimum minimum)
    (fun _ sharing currentSound => currentSound.withSharing sharing)
    sound commands

/-- What each pass from a sound ledger keeps is kept by all commands. -/
theorem Sound.performAll_induction
    {motive : Ledger → Prop}
    (pass :
      ∀ before after,
        before.Sound → before.PassesTo after → motive before →
        motive after)
    (setMinimum :
      ∀ ledger minimum,
        motive ledger → motive (ledger.withMinimum minimum))
    (setSharing :
      ∀ ledger sharing,
        motive ledger → motive (ledger.withSharing sharing))
    {ledger : Ledger}
    (sound : ledger.Sound)
    (start : motive ledger)
    (commands : List LedgerCommand) :
    motive (ledger.performAll commands) := by
  have both :
      (ledger.performAll commands).Sound ∧
        motive (ledger.performAll commands) := by
    refine
      Ledger.performAll_induction (motive := fun current =>
        current.Sound ∧ motive current)
        ?_ ?_ ?_ ⟨sound, start⟩ commands
    · rintro before after passes ⟨beforeSound, held⟩
      exact
        ⟨passes.sound beforeSound,
          pass before after beforeSound passes held⟩
    · rintro current minimum ⟨currentSound, held⟩
      exact
        ⟨currentSound.withMinimum minimum,
          setMinimum current minimum held⟩
    · rintro current sharing ⟨currentSound, held⟩
      exact
        ⟨currentSound.withSharing sharing,
          setSharing current sharing held⟩
  exact both.2

/-- A ledger of new accounts. -/
def fresh
    (caps : List (String × Cap))
    (pool : Int) :
    Ledger :=
  opened
    (caps.map fun (companyId, cap) => Account.opened companyId cap)
    pool

/-- A fresh ledger is sound, as caps and pool below zero are opened as zero. -/
theorem sound_fresh
    (caps : List (String × Cap))
    (pool : Int) :
    (fresh caps pool).Sound where
  pool_nonneg := Int.le_max_left 0 pool
  minimum_nonneg := Int.le_refl 0
  accounts_sound := by
    intro account member
    obtain ⟨⟨companyId, cap⟩, -, same⟩ := List.mem_map.mp member
    rw [← same]
    exact Account.sound_opened companyId cap

end Ledger

/-- One pass in a history, with the ledger before it and the one after it. -/
structure PassStep where
  before : Ledger
  after : Ledger
deriving Repr, DecidableEq

namespace Ledger

/-- The passes among remainder passes, in order. -/
def remainderSteps :
    (limit : Nat) →
    Ledger →
    List PassStep
  | 0, _ => []
  | left + 1, ledger =>
      if ledger.atRest?.isSome then
        []
      else
        let (next, report) := ledger.runPass
        ⟨ledger, next⟩ ::
          if report.allocated = 0 then
            []
          else
            remainderSteps left next

/-- The passes that a command runs, in order. -/
def steps
    (ledger : Ledger) :
    LedgerCommand →
    List PassStep
  | .pass => [⟨ledger, ledger.runPass.1⟩]
  | .weighted weights => [⟨ledger, (ledger.runWeighted weights).1⟩]
  | .redistribute limit => remainderSteps limit ledger
  | .setMinimum _ => []
  | .setSharing _ => []

/-- The passes that commands run, in order. -/
def history
    (ledger : Ledger) :
    List LedgerCommand →
    List PassStep
  | [] => []
  | command :: rest =>
      ledger.steps command ++
        history (ledger.perform command).1 rest

/-- There are as many steps as remainder passes are reported. -/
theorem length_remainderSteps
    (limit : Nat)
    (ledger : Ledger) :
    (remainderSteps limit ledger).length =
      (redistribute limit ledger).2.passes := by
  induction limit generalizing ledger with
  | zero =>
      cases resting : ledger.atRest? <;>
        simp [redistribute, remainderSteps, resting]
  | succ left inductionHypothesis =>
      cases resting : ledger.atRest? with
      | some stop =>
          simp [redistribute_of_atRest resting, remainderSteps,
            resting]
      | none =>
          rw [redistribute_succ resting]
          by_cases idle : ledger.runPass.2.allocated = 0
          · simp [remainderSteps, resting, idle]
          · simp [remainderSteps, resting, idle,
              inductionHypothesis, RemainderReport.after]

/-- The last step ends where the remainder passes end. -/
theorem getLastD_remainderSteps
    (limit : Nat)
    (ledger : Ledger) :
    ((remainderSteps limit ledger).map PassStep.after).getLastD
        ledger =
      (redistribute limit ledger).1 := by
  induction limit generalizing ledger with
  | zero =>
      rw [redistribute_zero]
      rfl
  | succ left inductionHypothesis =>
      cases resting : ledger.atRest? with
      | some stop =>
          simp [redistribute_of_atRest resting, remainderSteps,
            resting]
      | none =>
          have followed := inductionHypothesis ledger.runPass.1
          rw [redistribute_succ resting]
          by_cases idle : ledger.runPass.2.allocated = 0
          · simp [remainderSteps, resting, idle]
          · simp only [remainderSteps, resting, Option.isSome_none,
              Bool.false_eq_true, if_false, if_neg idle,
              List.map_cons, List.getLastD_cons, followed]

/-- Remainder passes count as many passes as there were. -/
theorem passes_redistribute
    (limit : Nat)
    (ledger : Ledger) :
    (redistribute limit ledger).1.passes =
      ledger.passes + (redistribute limit ledger).2.passes := by
  induction limit generalizing ledger with
  | zero =>
      cases resting : ledger.atRest? <;>
        simp [redistribute, resting]
  | succ left inductionHypothesis =>
      cases resting : ledger.atRest? with
      | some stop =>
          simp [redistribute_of_atRest resting]
      | none =>
          have followed := inductionHypothesis ledger.runPass.1
          have counted : ledger.runPass.1.passes = ledger.passes + 1 :=
            PassesTo.shared.passes_eq
          rw [redistribute_succ resting]
          split
          · exact counted
          · simp only [followed, counted, RemainderReport.after]
            omega

/-- A history holds as many passes as its commands count. -/
theorem passes_performAll
    (ledger : Ledger)
    (commands : List LedgerCommand) :
    (ledger.performAll commands).passes =
      ledger.passes + (ledger.history commands).length := by
  induction commands generalizing ledger with
  | nil =>
      rfl
  | cons command rest inductionHypothesis =>
      have counted :
          (ledger.perform command).1.passes =
            ledger.passes + (ledger.steps command).length := by
        cases command with
        | pass => rfl
        | weighted weights => rfl
        | redistribute limit =>
            simp only [steps, length_remainderSteps]
            exact passes_redistribute limit ledger
        | setMinimum minimum => rfl
        | setSharing sharing => rfl
      have followed := inductionHypothesis (ledger.perform command).1
      simp only [performAll, List.foldl_cons] at followed ⊢
      rw [followed, counted, history, List.length_append]
      omega

/-- Each remainder pass starts where single passes would have led as well. -/
theorem exists_commands_of_mem_remainderSteps
    {limit : Nat}
    {ledger : Ledger}
    {step : PassStep}
    (member : step ∈ remainderSteps limit ledger) :
    ∃ commands,
      step.before = ledger.performAll commands ∧
        step.before.PassesTo step.after := by
  induction limit generalizing ledger with
  | zero =>
      cases member
  | succ left inductionHypothesis =>
      unfold remainderSteps at member
      split at member
      · cases member
      · rcases List.mem_cons.mp member with isFirst | isLater
        · subst isFirst
          exact ⟨[], rfl, .shared⟩
        · split at isLater
          · cases isLater
          · obtain ⟨commands, reached, pass⟩ :=
              inductionHypothesis isLater
            exact ⟨.pass :: commands, reached, pass⟩

/-- Each pass in a history starts from a ledger that commands reach. -/
theorem exists_commands_of_mem_history
    {ledger : Ledger}
    {commands : List LedgerCommand}
    {step : PassStep}
    (member : step ∈ ledger.history commands) :
    ∃ earlier,
      step.before = ledger.performAll earlier ∧
        step.before.PassesTo step.after := by
  induction commands generalizing ledger with
  | nil =>
      cases member
  | cons command rest inductionHypothesis =>
      rcases List.mem_append.mp member with atCommand | inRest
      · cases command with
        | pass =>
            rw [List.mem_singleton.mp atCommand]
            exact ⟨[], rfl, .shared⟩
        | weighted weights =>
            rw [List.mem_singleton.mp atCommand]
            exact ⟨[], rfl, .weighted weights⟩
        | redistribute limit =>
            exact exists_commands_of_mem_remainderSteps atCommand
        | setMinimum minimum =>
            cases atCommand
        | setSharing sharing =>
            cases atCommand
      · obtain ⟨earlier, reached, pass⟩ :=
          inductionHypothesis inRest
        exact ⟨command :: earlier, reached, pass⟩

end Ledger

end FollowOn

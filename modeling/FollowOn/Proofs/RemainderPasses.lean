import FollowOn.Proofs.Ledger.Candidates
import FollowOn.Proofs.Ledger.Counter
import FollowOn.Proofs.Reasons

namespace FollowOn

/-!
# How long remainder passes go on, and what they report

Remainder passes lose a candidate each, so there are at most as many of them as
unsettled accounts, and with that many allowed they stop only when nothing more
can be paid. Their reports are exact: each reason to stop is given exactly when
it holds of the ledger that they leave, and what they count is what changed. In
a plan both show, as reasons of its allocations and as the passes in which these
were paid last.
-/

namespace RemainderReport

/-- Remainder passes from a ledger end in time. -/
structure EndsInTime
    (limit : Nat)
    (before : Ledger)
    (report : RemainderReport) : Prop where
  passes_le : report.passes ≤ before.unsettledCount
  passes_le_one : before.sharing = .greedy → report.passes ≤ 1
  stop_of_unsettledCount_le :
    before.unsettledCount ≤ limit →
      report.stop = .poolExhausted ∨ report.stop = .noRoom

/-- What a report of remainder passes says about the ledgers before and after them. -/
structure IsExact
    (limit : Nat)
    (before after : Ledger)
    (report : RemainderReport) : Prop where
  stop_ne_noProgress : report.stop ≠ .noProgress
  stop_eq_poolExhausted_iff :
    report.stop = .poolExhausted ↔ after.pool = 0
  stop_eq_noRoom_iff :
    report.stop = .noRoom ↔
      0 < after.pool ∧
        ∀ account ∈ after.accounts,
          account.settled = false →
            account.granted = 0 ∧
              0 < after.minimum ∧
              min account.cap after.pool < after.minimum
  stop_eq_passLimit_iff :
    report.stop = .passLimit ↔
      0 < after.pool ∧
        (∃ account ∈ after.accounts, after.opens account = true) ∧
        report.passes = limit
  passes_eq : after.passes = before.passes + report.passes
  pool_eq : after.pool = before.pool - report.allocated

end RemainderReport

namespace Ledger

variable
    {ledger : Ledger}
    (sound : ledger.Sound)
    (limit : Nat)

include sound

/-- Remainder passes on a sound ledger end in time. -/
theorem Sound.endsInTime_redistribute :
    (redistribute limit ledger).2.EndsInTime limit ledger := by
  obtain ⟨passesAtMost, restsInTime⟩ :=
    candidateCount_bounds_redistribute sound limit
  have candidatesAtMost := candidateCount_le_unsettledCount ledger
  refine
    ⟨Nat.le_trans passesAtMost candidatesAtMost,
      fun greedy => passes_redistribute_le_one sound greedy limit, ?_⟩
  intro enough
  have resting := restsInTime (Nat.le_trans candidatesAtMost enough)
  have told := stop_redistribute sound limit
  cases rests : (redistribute limit ledger).1.atRest? with
  | none =>
      exact (atRest?_eq_none_iff.mp rests resting).elim
  | some stop =>
      rw [rests, Option.getD_some] at told
      rw [told]
      exact eq_poolExhausted_or_noRoom_of_atRest? rests

/-- The report of remainder passes on a sound ledger is exact. -/
theorem Sound.isExact_redistribute :
    (redistribute limit ledger).2.IsExact limit ledger
      (redistribute limit ledger).1 := by
  have afterSound := sound_redistribute sound limit
  refine
    ⟨?_, ?_, ?_, ?_, passes_redistribute limit ledger,
      pool_redistribute sound limit⟩
  · rw [ne_eq, stop_redistribute_eq_iff sound limit .noProgress nofun]
    intro rests
    rcases eq_poolExhausted_or_noRoom_of_atRest? rests with
      isOther | isOther <;> cases isOther
  · rw [stop_redistribute_eq_iff sound limit .poolExhausted nofun,
      atRest?_eq_poolExhausted_iff]
  · rw [stop_redistribute_eq_iff sound limit .noRoom nofun,
      atRest?_eq_noRoom_iff afterSound]
  · rw [stop_redistribute_eq_passLimit_iff sound limit,
      afterSound.not_atRest_iff, hasOpenRoom, List.any_eq_true]
    constructor
    · rintro ⟨hasPool, someone⟩
      refine ⟨hasPool, someone, ?_⟩
      rcases atRest_or_passes_eq_of_redistribute sound limit with
        resting | usedUp
      · exact
          (afterSound.not_atRest_iff.mpr
            ⟨hasPool, List.any_eq_true.mpr someone⟩ resting).elim
      · exact usedUp
    · rintro ⟨hasPool, someone, -⟩
      exact ⟨hasPool, someone⟩

end Ledger

namespace Request

/-- Number of companies that may be granted anything. -/
def cappedCount (request : Request) : Nat :=
  request.companies.countP fun company =>
    decide (0 < (request.capOf company).amount)

variable
    {request : Request}

/-- At first, whoever has a cap is unsettled. -/
theorem unsettledCount_ledger
    (sharing : SharingRule) :
    (request.ledger.withSharing sharing).unsettledCount =
      request.cappedCount := by
  have unsettled (company : Company) :
      (!(Account.opened company.id (request.capOf company)).settled) =
        decide (0 < (request.capOf company).amount) := by
    have notNegative : 0 ≤ (request.capOf company).amount :=
      evaluateCap_amount_nonneg ..
    rw [Bool.eq_iff_iff]
    simp only [Account.opened, Bool.not_eq_true',
      decide_eq_false_iff_not, decide_eq_true_eq]
    omega
  change request.accounts.countP (fun account => !account.settled) = _
  rw [accounts_eq_map, List.countP_map, cappedCount,
    ← (ranked_perm request.companies).countP_eq]
  exact List.countP_congr fun company _ => by
    rw [Function.comp_apply, unsettled]

end Request

namespace Strategy

variable
    {strategy : Strategy}
    {request : Request}
    {settings : Settings}

/-- Nobody is out of passes in a plan that ends at rest. -/
theorem reason_ne_passLimit_of_atRest
    (resting : (strategy.finalLedger request).AtRest)
    {allocation : Allocation}
    (member :
      allocation ∈ (strategy.planValid request).allocations) :
    allocation.reason ≠ .passLimit := by
  intro isPassLimit
  obtain ⟨company, -, -, -, outcome, explains, -⟩ :=
    exists_mem_left_of_forall₂ (forall₂_explains strategy request)
      member
  have told := explains.outcome_reason_eq
  rw [isPassLimit] at told
  subst told
  obtain ⟨-, hasPool, paid, belowCap, -⟩ := explains
  obtain ⟨account, inLedger, same⟩ := List.mem_map.mp member
  subst same
  have sound := (continues_finalLedger strategy request).sound
  rcases sound.full_or_belowMinimum_of_atRest resting hasPool
      inLedger with full | ⟨unpaid, -⟩
  · exact (Int.ne_of_lt belowCap full).elim
  · exact (Int.ne_of_gt paid unpaid).elim

/-- The constrained strategy ends at rest if there are few companies to be paid. -/
theorem atRest_finalLedger_of_cappedCount_le
    (few : request.cappedCount ≤ 1 + settings.remainderPasses) :
    ((Strategy.constrained settings).finalLedger request).AtRest := by
  apply Ledger.atRest_redistribute_runPass
    (sound_openingLedger (.constrained settings) request)
  have candidatesAtMost :=
    Ledger.candidateCount_le_unsettledCount
      (request.ledger.withSharing settings.sharing)
  rw [Request.unsettledCount_ledger] at candidatesAtMost
  exact Nat.le_trans candidatesAtMost few

/-- A constrained plan of several passes has somebody who was paid in the last one. -/
theorem exists_pass_eq_of_passes
    (several :
      1 < ((Strategy.constrained settings).planValid
        request).summary.passes) :
    ∃ allocation ∈
        ((Strategy.constrained settings).planValid
          request).allocations,
      allocation.pass =
        ((Strategy.constrained settings).planValid
          request).summary.passes := by
  have firstSound :
      (request.ledger.withSharing settings.sharing).runPass.1.Sound :=
    Ledger.PassesTo.shared.sound
      (sound_openingLedger (.constrained settings) request)
  have counted := passes_finalLedger settings request
  have ran :
      0 < (Ledger.redistribute settings.remainderPasses
        (request.ledger.withSharing
          settings.sharing).runPass.1).2.passes := by
    change 1 < ((Strategy.constrained settings).finalLedger
      request).passes at several
    omega
  obtain ⟨account, member, paidLast⟩ :=
    Ledger.exists_lastPaid_redistribute firstSound
      settings.remainderPasses ran
  exact ⟨_, List.mem_map_of_mem member, paidLast⟩

end Strategy

/--
Whatever was done before to a ledger of new accounts, remainder passes need no
more passes than there are unsettled accounts. So nobody is left out of passes
by even shares if no more companies can be paid than there are passes.
-/
theorem remainder_passes_end_in_time :
    (∀ (caps : List (String × Cap))
        (pool : Int)
        (commands : List LedgerCommand)
        (limit : Nat),
      let ledger := (Ledger.fresh caps pool).performAll commands
      (ledger.redistribute limit).2.EndsInTime limit ledger) ∧
      ∀ (request : Request)
        (settings : Settings),
        request.validate = .ok () →
        settings.sharing = .evenShare →
        request.cappedCount ≤ 1 + settings.remainderPasses →
        ∃ plan,
          (Strategy.constrained settings).plan request = .ok plan ∧
            ∀ allocation ∈ plan.allocations,
              allocation.reason ≠ .passLimit := by
  refine ⟨fun caps pool commands limit => ?_, ?_⟩
  · have sound := (Ledger.sound_fresh caps pool).performAll commands
    exact sound.endsInTime_redistribute limit
  · intro request settings valid _ few
    refine
      ⟨_, Strategy.plan_of_valid valid (.constrained settings), ?_⟩
    intro allocation member
    exact
      Strategy.reason_ne_passLimit_of_atRest
        (Strategy.atRest_finalLedger_of_cappedCount_le few) member

/-- Two companies with a cap of a thousand each. -/
def Ledger.twoSeatCaps : List (String × Cap) :=
  [("a", ⟨1000, .stageMultiple, false, Ratio.one⟩),
    ("b", ⟨1000, .stageMultiple, false, Ratio.one⟩)]

/-- Two accounts by even shares; the first check of one leaves too little for the other. -/
def Ledger.twoSeats : Ledger :=
  (Ledger.fresh Ledger.twoSeatCaps 301).performAll
    [.setMinimum (some 151), .setSharing .evenShare]

/--
By even shares the second of two accounts is passed over once the first has been
paid, so both passes are needed; three seed companies need one after the first.
-/
theorem remainder_passes_end_in_time_secondTooSmall :
    (Ledger.twoSeats.unsettledCount ≤ 2 ∧
        (Ledger.twoSeats.redistribute 2).2.passes = 2 ∧
        ((Ledger.twoSeats.redistribute 2).2.stop = .poolExhausted ∨
          (Ledger.twoSeats.redistribute 2).2.stop = .noRoom)) ∧
      Request.threeSeeds.cappedCount ≤
        1 + (⟨2, 1, .evenShare⟩ : Settings).remainderPasses ∧
      ∃ plan,
        (Strategy.constrained ⟨2, 1, .evenShare⟩).plan
            Request.threeSeeds = .ok plan ∧
          ∀ allocation ∈ plan.allocations,
            allocation.reason ≠ .passLimit := by
  refine ⟨⟨by decide, by decide, ?_⟩, by decide, ?_⟩
  · exact
      (remainder_passes_end_in_time.1 _ _ _
        2).stop_of_unsettledCount_le (by decide)
  · exact
      remainder_passes_end_in_time.2 Request.threeSeeds
        ⟨2, 1, .evenShare⟩ Request.validate_threeSeeds rfl (by decide)

namespace Ledger

/-- Remainder passes have a result exactly if the counter can hold the number of each. -/
theorem IsNumbered.isSome_redistribute?_iff
    {ledger : Ledger}
    (numbered : ledger.IsNumbered)
    (limit : Nat) :
    (redistribute? limit ledger).isSome ↔
      ledger.passes + (redistribute limit ledger).2.passes <
        counterLimit := by
  rw [redistribute?_eq numbered, Option.isSome_ite, IsNumbered,
    passes_redistribute]

end Ledger

/--
Whatever was done before to a ledger of new accounts, a pass pays while
somebody can be paid, and remainder passes report exactly why they stopped and
what they did, provided that the counter can hold the numbers of the passes. So
in a constrained plan somebody was paid in the last pass, if it is not the first
one.
-/
theorem remainder_passes_report_exactly :
    (∀ (caps : List (String × Cap))
        (pool : Int)
        (commands : List LedgerCommand)
        (ledger : Ledger),
      (Ledger.fresh caps pool).performAll? commands = some ledger →
      (∀ sharing next report,
        ledger.hasOpenRoom = true →
          (ledger.withSharing sharing).runPass? =
            some (next, report) →
          0 < report.allocated) ∧
        ∀ limit,
          ((ledger.redistribute? limit).isSome ↔
              ledger.passes + (ledger.redistribute limit).2.passes <
                Ledger.counterLimit) ∧
            ∀ next report,
              ledger.redistribute? limit = some (next, report) →
              report.IsExact limit ledger next) ∧
      ∀ (request : Request)
        (settings : Settings),
        request.validate = .ok () →
        ∃ plan,
          (Strategy.constrained settings).plan request = .ok plan ∧
            (1 < plan.summary.passes →
              ∃ allocation ∈ plan.allocations,
                allocation.pass = plan.summary.passes) := by
  refine ⟨?_, ?_⟩
  · intro caps pool commands ledger reaches
    obtain ⟨numbered, same⟩ := Ledger.eq_performAll_of_reached reaches
    have sound : ledger.Sound := by
      rw [← same]
      exact (Ledger.sound_fresh caps pool).performAll commands
    refine ⟨?_, fun limit => ⟨?_, ?_⟩⟩
    · intro sharing next report someone passed
      have pays :=
        Ledger.allocated_runPass_pos (sound.withSharing sharing)
          (sound.not_atRest_of_hasOpenRoom someone)
      obtain ⟨-, result⟩ := Ledger.runPass?_eq_some_iff.mp passed
      rw [result] at pays
      exact pays
    · exact numbered.isSome_redistribute?_iff limit
    · intro next report ran
      have isExact := sound.isExact_redistribute limit
      obtain ⟨-, result⟩ :=
        (Ledger.redistribute?_eq_some_iff numbered).mp ran
      rw [result] at isExact
      exact isExact
  · intro request settings valid
    exact
      ⟨_, Strategy.plan_of_valid valid (.constrained settings),
        Strategy.exists_pass_eq_of_passes⟩

/-- A single remainder pass stops for its limit; in a plan the second pass pays last. -/
theorem remainder_passes_report_exactly_twoPasses :
    (Ledger.twoSeats.hasOpenRoom = true ∧
        0 < (Ledger.twoSeats.withSharing .greedy).runPass.2.allocated ∧
        (Ledger.twoSeats.redistribute? 1).isSome ∧
        (Ledger.twoSeats.redistribute 1).2.stop = .passLimit ∧
        0 < (Ledger.twoSeats.redistribute 1).1.pool) ∧
      ∃ plan,
        (Strategy.constrained ⟨2, 1, .evenShare⟩).plan
            Request.threeSeeds = .ok plan ∧
          1 < plan.summary.passes ∧
          ∃ allocation ∈ plan.allocations,
            allocation.pass = plan.summary.passes := by
  have reaches :
      (Ledger.fresh Ledger.twoSeatCaps 301).performAll?
          [.setMinimum (some 151), .setSharing .evenShare] =
        some Ledger.twoSeats := by
    decide
  have passed :
      (Ledger.twoSeats.withSharing .greedy).runPass? =
        some (Ledger.twoSeats.withSharing .greedy).runPass := by
    decide
  have ran :
      Ledger.twoSeats.redistribute? 1 =
        some (Ledger.twoSeats.redistribute 1) := by
    decide
  obtain ⟨paysWhileOpen, reports⟩ :=
    remainder_passes_report_exactly.1 _ _ _ _ reaches
  refine ⟨⟨by decide, ?_, ?_, by decide, ?_⟩, ?_⟩
  · exact paysWhileOpen .greedy _ _ (by decide) passed
  · exact (reports 1).1.mpr (by decide)
  · have isExact := (reports 1).2 _ _ ran
    exact (isExact.stop_eq_passLimit_iff.mp (by decide)).1
  · obtain ⟨plan, planned, paidLast⟩ :=
      remainder_passes_report_exactly.2 Request.threeSeeds
        ⟨2, 1, .evenShare⟩ Request.validate_threeSeeds
    have several : 1 < plan.summary.passes := by
      rw [← (Strategy.plan_eq_ok_iff.mp planned).2]
      simp only [Strategy.planValid, Plan.ofLedger,
        Strategy.finalLedger, Request.ledger, Request.accounts_eq_map,
        Request.ranked_threeSeeds]
      decide
    exact ⟨plan, planned, several, paidLast several⟩

end FollowOn

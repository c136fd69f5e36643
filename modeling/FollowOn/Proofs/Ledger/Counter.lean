import FollowOn.Proofs.Ledger.History

namespace FollowOn

/-!
# What a counter of 32 bits can number

A pass whose number leaves the word of the counter has no result, so commands
reach a ledger exactly if they run fewer passes than the word has numbers, the
remainder passes among them included. Every pass adds one to the counter and
nothing ever lowers it. So it is enough to look at the counter at the end, and
where the commands reach a ledger, it is the one that they would lead to with a
counter of any size.
-/

namespace Ledger

/-- The pass counter is below the numbers that its word cannot hold. -/
def IsNumbered (ledger : Ledger) : Prop :=
  ledger.passes < counterLimit

instance (ledger : Ledger) : Decidable ledger.IsNumbered :=
  inferInstanceAs (Decidable (_ < _))

/-- The counter of a fresh ledger stands at zero. -/
theorem isNumbered_fresh
    (caps : List (String × Cap))
    (pool : Int) :
    (fresh caps pool).IsNumbered :=
  Nat.two_pow_pos 32

/-- A pass can be run exactly if the counter can hold its number. -/
theorem isSome_runOffers?_iff
    {offers : List (Account × Offer)}
    {ledger : Ledger} :
    (ledger.runOffers? offers).isSome ↔
      ledger.passes + 1 < counterLimit := by
  rw [runOffers?, Option.isSome_ite]

section Passes

variable
    {ledger next : Ledger}
    {report : PassReport}
    {weights : List Nat}

/-- A pass has a result exactly if the ledger after it is numbered. -/
theorem runPass?_eq
    (ledger : Ledger) :
    ledger.runPass? =
      if ledger.runPass.1.IsNumbered then
        some ledger.runPass
      else
        none := rfl

/-- A weighted pass ends the run exactly if its number does not fit in the counter. -/
theorem runWeighted?_eq
    (weights : List Nat)
    (ledger : Ledger) :
    ledger.runWeighted? weights =
      if (ledger.runWeighted weights).1.IsNumbered then
        some (ledger.runWeighted weights)
      else
        none := rfl

/-- What a pass that is counted gives is what the pass gives. -/
theorem runPass?_eq_some_iff :
    ledger.runPass? = some (next, report) ↔
      next.IsNumbered ∧ ledger.runPass = (next, report) := by
  rw [runPass?_eq, Option.ite_none_right_eq_some, Option.some_inj]
  refine and_congr_left fun passed => ?_
  rw [passed]

/-- What a weighted pass that is counted gives is what the weighted pass gives. -/
theorem runWeighted?_eq_some_iff :
    ledger.runWeighted? weights = some (next, report) ↔
      next.IsNumbered ∧ ledger.runWeighted weights = (next, report) := by
  rw [runWeighted?_eq, Option.ite_none_right_eq_some, Option.some_inj]
  refine and_congr_left fun passed => ?_
  rw [passed]

end Passes

/-- Below the limit of the counter a pass does not end the run. -/
theorem runPass?_of_lt
    {ledger : Ledger}
    (notLast : ledger.passes + 1 < counterLimit) :
    ledger.runPass? = some ledger.runPass :=
  if_pos notLast

/-- Below the limit of the counter a weighted pass does not end the run. -/
theorem runWeighted?_of_lt
    {ledger : Ledger}
    (notLast : ledger.passes + 1 < counterLimit)
    (weights : List Nat) :
    ledger.runWeighted? weights =
      some (ledger.runWeighted weights) :=
  if_pos notLast

/-- There are at most as many remainder passes as the limit allows. -/
theorem passes_redistribute_le
    (limit : Nat)
    (ledger : Ledger) :
    (redistribute limit ledger).2.passes ≤ limit := by
  induction limit generalizing ledger with
  | zero =>
      cases resting : ledger.atRest? <;>
        simp [redistribute, resting]
  | succ left inductionHypothesis =>
      cases resting : ledger.atRest? with
      | some stop =>
          simp [redistribute_of_atRest resting]
      | none =>
          have followed := inductionHypothesis ledger.runPass.1
          rw [redistribute_succ resting]
          split
          · exact Nat.le_add_left 1 left
          · exact Nat.succ_le_succ followed

/-- Commands never lower the counter. -/
theorem passes_le_performAll
    (ledger : Ledger)
    (commands : List LedgerCommand) :
    ledger.passes ≤ (ledger.performAll commands).passes := by
  rw [passes_performAll]
  exact Nat.le_add_right _ _

section Numbered

variable
    {ledger : Ledger}
    (numbered : ledger.IsNumbered)

include numbered

/-- Remainder passes have a result exactly if the ledger after them is numbered. -/
theorem redistribute?_eq
    (limit : Nat) :
    redistribute? limit ledger =
      if (redistribute limit ledger).1.IsNumbered then
        some (redistribute limit ledger)
      else
        none := by
  induction limit generalizing ledger with
  | zero =>
      cases resting : ledger.atRest? <;>
        simp [redistribute?, redistribute, resting, numbered]
  | succ left inductionHypothesis =>
      cases resting : ledger.atRest? with
      | some stop =>
          simp [redistribute?, redistribute, resting, numbered]
      | none =>
          rw [redistribute_succ resting]
          by_cases nextNumbered : ledger.runPass.1.IsNumbered
          · have passed : ledger.runPass? = some ledger.runPass :=
              runPass?_eq_some_iff.mpr ⟨nextNumbered, rfl⟩
            have followed := inductionHypothesis nextNumbered
            simp only [redistribute?, resting, passed,
              Option.bind_eq_bind, Option.bind_some]
            by_cases idle : ledger.runPass.2.allocated = 0
            · simp [idle, nextNumbered]
            · simp only [if_neg idle, followed]
              split <;> rfl
          · -- The counter has overflowed, and further passes only raise it.
            have further :=
              passes_redistribute left ledger.runPass.1
            have notPassed : ledger.runPass? = none :=
              if_neg nextNumbered
            have notNumbered :
                ¬(redistribute left ledger.runPass.1).1.IsNumbered := by
              simp only [IsNumbered] at nextNumbered ⊢
              omega
            simp only [redistribute?, resting, notPassed,
              Option.bind_eq_bind, Option.bind_none]
            by_cases idle : ledger.runPass.2.allocated = 0
            · simp [idle, nextNumbered]
            · simp [idle, notNumbered]

/-- A command has a result exactly if the ledger after it is numbered. -/
theorem perform?_eq
    (command : LedgerCommand) :
    ledger.perform? command =
      if (ledger.perform command).1.IsNumbered then
        some (ledger.perform command)
      else
        none := by
  cases command with
  | pass =>
      rw [perform?, runPass?_eq, perform]
      by_cases nextNumbered : ledger.runPass.1.IsNumbered <;>
        simp [nextNumbered]
  | weighted weights =>
      rw [perform?, runWeighted?_eq, perform]
      by_cases nextNumbered :
          (ledger.runWeighted weights).1.IsNumbered <;>
        simp [nextNumbered]
  | redistribute limit =>
      rw [perform?, redistribute?_eq numbered, perform]
      by_cases nextNumbered :
          (redistribute limit ledger).1.IsNumbered <;>
        simp [nextNumbered]
  | setMinimum minimum =>
      exact (if_pos numbered).symm
  | setSharing sharing =>
      exact (if_pos numbered).symm

/-- Commands reach a ledger exactly if the one that they lead to is numbered. -/
theorem performAll?_eq
    (commands : List LedgerCommand) :
    ledger.performAll? commands =
      if (ledger.performAll commands).IsNumbered then
        some (ledger.performAll commands)
      else
        none := by
  induction commands generalizing ledger with
  | nil =>
      exact (if_pos numbered).symm
  | cons command rest inductionHypothesis =>
      have unfolded :
          ledger.performAll (command :: rest) =
            (ledger.perform command).1.performAll rest := rfl
      rw [performAll?, perform?_eq numbered, unfolded]
      by_cases nextNumbered : (ledger.perform command).1.IsNumbered
      · simp [nextNumbered, inductionHypothesis nextNumbered]
      · have further :=
          passes_le_performAll (ledger.perform command).1 rest
        have notNumbered :
            ¬((ledger.perform command).1.performAll
              rest).IsNumbered := by
          simp only [IsNumbered] at nextNumbered ⊢
          omega
        simp [nextNumbered, notNumbered]

end Numbered

/-- Remainder passes have a result if the counter can hold all that the limit allows. -/
theorem redistribute?_of_lt
    {ledger : Ledger}
    {limit : Nat}
    (few : ledger.passes + limit < counterLimit) :
    redistribute? limit ledger = some (redistribute limit ledger) := by
  have counted := passes_redistribute limit ledger
  have atMost := passes_redistribute_le limit ledger
  have numbered : ledger.IsNumbered :=
    Nat.lt_of_le_of_lt (Nat.le_add_right _ _) few
  rw [redistribute?_eq numbered, if_pos]
  rw [IsNumbered]
  omega

section Reached

variable
    {ledger reached : Ledger}
    (numbered : ledger.IsNumbered)

include numbered

/-- Remainder passes are counted exactly if their last one is. -/
theorem redistribute?_eq_some_iff
    {limit : Nat}
    {report : RemainderReport} :
    redistribute? limit ledger = some (reached, report) ↔
      reached.IsNumbered ∧
        redistribute limit ledger = (reached, report) := by
  rw [redistribute?_eq numbered, Option.ite_none_right_eq_some,
    Option.some_inj]
  refine and_congr_left fun passed => ?_
  rw [passed]

/-- Commands are carried out exactly if the counter can hold the passes that they make. -/
theorem performAll?_eq_some_iff
    {commands : List LedgerCommand} :
    ledger.performAll? commands = some reached ↔
      reached.IsNumbered ∧ ledger.performAll commands = reached := by
  rw [performAll?_eq numbered, Option.ite_none_right_eq_some,
    Option.some_inj]
  refine and_congr_left fun performed => ?_
  rw [performed]

end Reached

/-- Commands reach a ledger exactly if the counter can hold the number of their passes. -/
theorem isSome_performAll?_fresh_iff
    (caps : List (String × Cap))
    (pool : Int)
    (commands : List LedgerCommand) :
    ((fresh caps pool).performAll? commands).isSome ↔
      ((fresh caps pool).history commands).length < counterLimit := by
  have start : (fresh caps pool).passes = 0 := rfl
  rw [performAll?_eq (isNumbered_fresh caps pool), Option.isSome_ite,
    IsNumbered, passes_performAll, start, Nat.zero_add]

/-- A ledger that commands reach is numbered, and they lead to it whatever the counter. -/
theorem eq_performAll_of_reached
    {caps : List (String × Cap)}
    {pool : Int}
    {commands : List LedgerCommand}
    {reached : Ledger}
    (reaches :
      (fresh caps pool).performAll? commands = some reached) :
    reached.IsNumbered ∧
      (fresh caps pool).performAll commands = reached :=
  (performAll?_eq_some_iff (isNumbered_fresh caps pool)).mp reaches

end Ledger

end FollowOn

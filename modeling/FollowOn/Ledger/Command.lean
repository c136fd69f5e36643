import FollowOn.Ledger.Remainder
import FollowOn.Ledger.Weighted

namespace FollowOn

/-!
# Commands to a ledger

Everything that can be done to a ledger once it is opened: run a pass by
either way of sharing, run remainder passes, or change what the next pass goes
by. A history is a list of commands; `Ledger.perform` carries one out, however
many passes there have been. `Ledger.perform?` does so only while the counter
can hold the number of every pass, and commands reach a ledger exactly if all
of them are carried out so.
-/

/-- Something that can be done to a ledger. -/
inductive LedgerCommand where
  /-- One pass by the rule of sharing in force. -/
  | pass
  /-- One pass by weighted shares. -/
  | weighted (weights : List Nat)
  /-- Remainder passes up to a limit. -/
  | redistribute (limit : Nat)
  /-- Set the least first check. -/
  | setMinimum (minimum : Option Int)
  /-- Set the rule of sharing. -/
  | setSharing (sharing : SharingRule)
deriving Repr, DecidableEq

/-- What a command reports. -/
inductive CommandReport where
  | pass (report : PassReport)
  | remainder (report : RemainderReport)
  /-- A setting has nothing to report. -/
  | nothing
deriving Repr, DecidableEq

namespace Ledger

/-- Carry out a command, however many passes there have been. -/
def perform
    (ledger : Ledger) :
    LedgerCommand →
    Ledger × CommandReport
  | .pass =>
      let (next, report) := ledger.runPass
      (next, .pass report)
  | .weighted weights =>
      let (next, report) := ledger.runWeighted weights
      (next, .pass report)
  | .redistribute limit =>
      let (next, report) := redistribute limit ledger
      (next, .remainder report)
  | .setMinimum minimum =>
      (ledger.withMinimum minimum, .nothing)
  | .setSharing sharing =>
      (ledger.withSharing sharing, .nothing)

/-- The ledger after commands, however many passes they run. -/
def performAll
    (ledger : Ledger)
    (commands : List LedgerCommand) :
    Ledger :=
  commands.foldl (fun current command => (current.perform command).1) ledger

/-- Carry out a command, if the counter can hold the number of every pass of it. -/
def perform?
    (ledger : Ledger) :
    LedgerCommand →
    Option (Ledger × CommandReport)
  | .pass => do
      let (next, report) ← ledger.runPass?
      some (next, .pass report)
  | .weighted weights => do
      let (next, report) ← ledger.runWeighted? weights
      some (next, .pass report)
  | .redistribute limit => do
      let (next, report) ← redistribute? limit ledger
      some (next, .remainder report)
  | .setMinimum minimum =>
      some (ledger.withMinimum minimum, .nothing)
  | .setSharing sharing =>
      some (ledger.withSharing sharing, .nothing)

/-- The ledger that commands reach, if the counter can hold the number of every pass. -/
def performAll?
    (ledger : Ledger) :
    List LedgerCommand →
    Option Ledger
  | [] => some ledger
  | command :: rest => do
      let (next, _) ← ledger.perform? command
      next.performAll? rest

/--
Carry out commands in order, as far as the counter can number their passes, and
keep each ledger with its report.
-/
def trace
    (ledger : Ledger) :
    List LedgerCommand →
    List (Ledger × CommandReport)
  | [] => []
  | command :: rest =>
      match ledger.perform? command with
      | some (next, report) => (next, report) :: next.trace rest
      | none => []

/-- The last ledger of a trace is the one that its commands reach. -/
theorem getLastD_trace
    {ledger reached : Ledger}
    {commands : List LedgerCommand}
    (reaches : ledger.performAll? commands = some reached) :
    ((ledger.trace commands).map Prod.fst).getLastD ledger =
      reached := by
  induction commands generalizing ledger with
  | nil =>
      exact Option.some.inj reaches
  | cons command rest inductionHypothesis =>
      rw [performAll?, Option.bind_eq_bind, Option.bind_eq_some_iff]
        at reaches
      obtain ⟨⟨next, report⟩, performed, reachesNext⟩ := reaches
      have followed := inductionHypothesis reachesNext
      simp only [trace, performed, List.map_cons, List.getLastD_cons,
        followed]

end Ledger

end FollowOn

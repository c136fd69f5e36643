import FollowOn.Ledger.EvenShare

namespace FollowOn

/-!
# Remainder passes

After its first pass a ledger may run further ones, to grant what settled
accounts left in the pool. They stop as soon as the pool is empty, nobody can
be paid, the limit of passes is reached, or a pass moved nothing.
-/

/-- Why remainder passes stopped. -/
inductive StopReason where
  /-- The pool is empty. -/
  | poolExhausted
  /-- No account can be paid. -/
  | noRoom
  /-- No pass is left. -/
  | passLimit
  /-- The last pass moved nothing. -/
  | noProgress
deriving Repr, DecidableEq

/-- What remainder passes did. -/
structure RemainderReport where
  passes : Nat
  /-- Capital that was moved. -/
  allocated : Int
  stop : StopReason
deriving Repr, DecidableEq

/-- The report of a pass followed by the passes of another report. -/
def RemainderReport.after
    (first : PassReport)
    (rest : RemainderReport) :
    RemainderReport where
  passes := rest.passes + 1
  allocated := first.allocated + rest.allocated
  stop := rest.stop

namespace Ledger

/-- Why no further pass makes sense, if so. -/
def atRest? (ledger : Ledger) : Option StopReason :=
  if ledger.pool = 0 then
    some .poolExhausted
  else if ledger.hasOpenRoom then
    none
  else
    some .noRoom

/-- Run remainder passes, at most `limit` of them. -/
def redistribute :
    (limit : Nat) →
    Ledger →
    Ledger × RemainderReport
  | limit, ledger =>
      match ledger.atRest?, limit with
      | some stop, _ => (ledger, ⟨0, 0, stop⟩)
      | none, 0 => (ledger, ⟨0, 0, .passLimit⟩)
      | none, left + 1 =>
          let (next, report) := ledger.runPass
          if report.allocated = 0 then
            (next, ⟨1, 0, .noProgress⟩)
          else
            let (last, rest) := redistribute left next
            (last, rest.after report)

/--
Run remainder passes, at most `limit` of them, if the counter can hold the
number of each.
-/
def redistribute? :
    (limit : Nat) →
    Ledger →
    Option (Ledger × RemainderReport)
  | limit, ledger =>
      match ledger.atRest?, limit with
      | some stop, _ => some (ledger, ⟨0, 0, stop⟩)
      | none, 0 => some (ledger, ⟨0, 0, .passLimit⟩)
      | none, left + 1 => do
          let (next, report) ← ledger.runPass?
          if report.allocated = 0 then
            some (next, ⟨1, 0, .noProgress⟩)
          else
            let (last, rest) ← redistribute? left next
            some (last, rest.after report)

end Ledger

/-- A ledger at rest runs no remainder pass, whatever the limit. -/
theorem Ledger.redistribute_of_atRest
    {ledger : Ledger}
    {stop : StopReason}
    (atRest : ledger.atRest? = some stop)
    (limit : Nat) :
    redistribute limit ledger = (ledger, ⟨0, 0, stop⟩) := by
  cases limit <;> simp [redistribute, atRest]

end FollowOn

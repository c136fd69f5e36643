import FollowOn.Proofs.Checked.Cap
import FollowOn.Proofs.Ledger.Turn

namespace FollowOn

/-!
# Checked turns of an account

In checked steps a turn computes the room of an account, adds a payment to what
the account was granted and to what the pass has moved, takes it from the pool
and counts it. What an account is granted never exceeds its cap, and what the
pass has moved and what is left stay what they were together, so each of these
has its word.
-/

/-- A sound account whose cap is an amount. -/
structure Account.IsStored
    (account : Account) : Prop extends Account.Sound account where
  cap_le : account.cap ≤ Amount.greatest

/-- An offer without its mark: who is held back is offered nothing. -/
def Offer.withoutMark : Offer → Offer
  | .heldBack => .upTo 0
  | offer => offer

namespace Checked

/-- What an account can still take. -/
def room (account : Account) : Option Int := do
  let left ← amount? (account.cap - account.granted)
  some (max 0 left)

/-- What an account gets when `pool` is left. -/
def grant
    (minimum pool : Int)
    (offer : Offer)
    (account : Account) :
    Option Grant :=
  if account.settled then
    some .closed
  else do
    let room ← room account
    let available := min room pool
    let offered := offer.limit available
    some
      (if available ≤ 0 then
        .closed
      else if account.granted = 0 ∧ offered < minimum then
        .belowMinimum
      else if offered = 0 then
        .closed
      else
        .paid offered)

/-- An account and the report of its pass after a payment. -/
def pay
    (amount : Int)
    (account : Account)
    (report : PassReport) :
    Option (Account × PassReport) := do
  let room ← room account
  let granted ← amount? (account.granted + amount)
  let poolAfter ← amount? (report.poolAfter - amount)
  let allocated ← amount? (report.allocated + amount)
  let funded ← word? 64 (report.funded + 1)
  let settled ←
    if amount = room then
      word? 64 (report.settled + 1)
    else
      some report.settled
  some
    ({ account with
        granted := granted
        settled := if amount = room then true else account.settled
        lastPaid := report.pass },
      { report with
        allocated := allocated
        funded := funded
        settled := settled
        poolAfter := poolAfter })

/-- An account and the report of its pass after the turn of the account. -/
def turn
    (minimum : Int)
    (offer : Offer)
    (account : Account)
    (report : PassReport) :
    Option (Account × PassReport) := do
  let grant ← grant minimum report.poolAfter offer account
  match grant with
  | .closed => some (account, report)
  | .belowMinimum =>
      some ({ account with belowMinimum := true }, report)
  | .paid amount => pay amount account report

section Account

variable
    {account : Account}
    (stored : account.IsStored)

include stored

/-- The room of a stored account is computed within its word. -/
theorem room_eq :
    room account = some account.room := by
  have notNegative := stored.granted_nonneg
  have bounded := stored.granted_le_cap
  have capAtMost := stored.cap_le
  have fits :
      amount? (account.cap - account.granted) =
        some (account.cap - account.granted) :=
    amount?_of_bounds (by omega) (by omega)
  rw [room, fits]
  rfl

/-- The grant of a stored account is computed within its words. -/
theorem grant_eq
    (minimum pool : Int)
    (offer : Offer) :
    grant minimum pool offer account =
      some (account.grant minimum pool offer) := by
  cases settled : account.settled with
  | true =>
      simp [grant, Account.grant, settled]
  | false =>
      simp [grant, Account.grant, settled, room_eq stored]

end Account

/-- The account and the report after a grant, when the report was like this before. -/
def afterGrant
    (account : Account)
    (grant : Grant)
    (report : PassReport) :
    PassReport where
  pass := report.pass
  allocated := report.allocated + grant.amount
  funded := report.funded + if grant.isPaid then 1 else 0
  settled :=
    report.settled +
      if grant.isPaid && grant.amount == account.room then 1 else 0
  poolAfter := report.poolAfter - grant.amount

/-- A report that still has room for a number of payments. -/
structure HasRoomFor
    (payments : Nat)
    (report : PassReport) : Prop where
  allocated_nonneg : 0 ≤ report.allocated
  pool_nonneg : 0 ≤ report.poolAfter
  capital_le :
    report.allocated + report.poolAfter ≤ Amount.greatest
  funded_lt : report.funded + payments < 2 ^ 64
  settled_lt : report.settled + payments < 2 ^ 64

/-- A payment uses up one of those that the report has room for. -/
theorem HasRoomFor.afterGrant
    {payments : Nat}
    {report : PassReport}
    (hasRoom : HasRoomFor (payments + 1) report)
    (minimum : Int)
    (offer : Offer)
    (account : Account) :
    HasRoomFor payments
      (afterGrant account
        (account.grant minimum report.poolAfter offer) report) := by
  have poolNotNegative := hasRoom.pool_nonneg
  have allocated := hasRoom.allocated_nonneg
  have capital := hasRoom.capital_le
  have funded := hasRoom.funded_lt
  have settled := hasRoom.settled_lt
  have atMost :
      (account.grant minimum report.poolAfter offer).amount ≤
        report.poolAfter :=
    Account.amount_grant_le poolNotNegative offer account
  have atLeast :=
    account.amount_grant_nonneg minimum report.poolAfter offer
  constructor <;> simp only [Checked.afterGrant]
  · omega
  · omega
  · omega
  · split <;> omega
  · split <;> omega

/-- A payment is made without leaving the words. -/
theorem pay_eq
    {account : Account}
    (stored : account.IsStored)
    (isOpen : account.settled = false)
    {report : PassReport}
    {payments : Nat}
    (hasRoom : HasRoomFor (payments + 1) report)
    {amount : Int}
    (positive : 0 < amount)
    (withinRoom : amount ≤ account.room)
    (withinPool : amount ≤ report.poolAfter) :
    pay amount account report =
      some
        (account.receive report.pass (.paid amount),
          afterGrant account (.paid amount) report) := by
  have bounded := stored.granted_le_cap
  have notNegative := stored.granted_nonneg
  have capAtMost := stored.cap_le
  have allocated := hasRoom.allocated_nonneg
  have capital := hasRoom.capital_le
  have funded := hasRoom.funded_lt
  have settled := hasRoom.settled_lt
  have room := stored.room_eq
  have grantedFits :
      amount? (account.granted + amount) =
        some (account.granted + amount) :=
    amount?_of_bounds (by omega) (by omega)
  have poolFits :
      amount? (report.poolAfter - amount) =
        some (report.poolAfter - amount) :=
    amount?_of_bounds (by omega) (by omega)
  have allocatedFits :
      amount? (report.allocated + amount) =
        some (report.allocated + amount) :=
    amount?_of_bounds (by omega) (by omega)
  have fundedFits :
      word? 64 (report.funded + 1) = some (report.funded + 1) :=
    word?_of_lt (by omega)
  have settledFits :
      word? 64 (report.settled + 1) = some (report.settled + 1) :=
    word?_of_lt (by omega)
  simp only [pay, room_eq stored, grantedFits, poolFits,
    allocatedFits, fundedFits, settledFits, isOpen,
    Option.bind_eq_bind, Option.bind_some]
  by_cases fills : amount = account.room
  · simp [if_pos fills, Account.receive, afterGrant, Grant.amount,
      Grant.isPaid, decide_eq_true fills]
  · simp [if_neg fills, Account.receive, afterGrant, Grant.amount,
      Grant.isPaid, decide_eq_false fills]

/-- An offer without its mark, to an account that has the mark instead. -/
def faced (offered : Account × Offer) : Account × Offer :=
  (offered.1.facing offered.2, offered.2.withoutMark)

/-- Being held back is the mark on the account and a limit of zero. -/
theorem grant_withoutMark
    (minimum pool : Int)
    (offer : Offer)
    (account : Account) :
    (account.facing offer).grant minimum pool offer.withoutMark =
      account.grant minimum pool offer := by
  cases offer <;> rfl

/-- An account that asks for nothing leaves the report alone. -/
@[simp] theorem afterGrant_closed
    (account : Account)
    (report : PassReport) :
    afterGrant account .closed report = report := by
  simp [afterGrant, Grant.amount, Grant.isPaid]

/-- A payment that is refused leaves the report alone. -/
@[simp] theorem afterGrant_belowMinimum
    (account : Account)
    (report : PassReport) :
    afterGrant account .belowMinimum report = report := by
  simp [afterGrant, Grant.amount, Grant.isPaid]

/-- A turn of a stored account is computed within its words, counters included. -/
theorem turn_eq
    {account : Account}
    (stored : account.IsStored)
    {report : PassReport}
    {payments : Nat}
    (hasRoom : HasRoomFor (payments + 1) report)
    (minimum : Int)
    (offer : Offer) :
    turn minimum offer.withoutMark (account.facing offer) report =
      some
        ((account.facing offer).receive report.pass
            (account.grant minimum report.poolAfter offer),
          afterGrant account
            (account.grant minimum report.poolAfter offer) report) := by
  have facingStored : (account.facing offer).IsStored :=
    ⟨⟨stored.granted_nonneg, stored.granted_le_cap,
      stored.settled_iff⟩, stored.cap_le⟩
  rw [turn, grant_eq facingStored, grant_withoutMark,
    Option.bind_eq_bind, Option.bind_some]
  cases given : account.grant minimum report.poolAfter offer with
  | closed =>
      simp [Account.receive]
  | belowMinimum =>
      simp [Account.receive]
  | paid amount =>
      obtain ⟨positive, withinRoom, withinPool⟩ :=
        Account.paid_bounds given
      exact
        pay_eq facingStored (Account.paid_inversion given).1 hasRoom
          positive withinRoom withinPool

end Checked

end FollowOn

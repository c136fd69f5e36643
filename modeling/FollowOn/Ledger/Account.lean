import FollowOn.Cap

namespace FollowOn

/-!
# Accounts

An account holds what one company has been granted so far, next to its cap.
What a pass may grant it depends on the capital that is left, on the minimum
of a first check, and on the offer of the pass; `Account.grant` decides it and
`Account.receive` carries it out. A full account is settled and is never
touched again.
-/

/-- What a pass offers one account. -/
inductive Offer where
  /-- As much as it can take. -/
  | unlimited
  /-- At most a fixed amount. -/
  | upTo (amount : Int)
  /-- Nothing, since its first check would be below the minimum. -/
  | heldBack
deriving Repr, DecidableEq

namespace Offer

/-- An amount cut down to an offer. -/
def limit : Offer → Int → Int
  | .unlimited, amount => amount
  | .upTo greatest, amount => min amount (max greatest 0)
  | .heldBack, amount => min amount 0

/-- Whether an offer holds its account back. -/
def holdsBack : Offer → Bool
  | .heldBack => true
  | _ => false

end Offer

/-- What a pass grants one account. -/
inductive Grant where
  /-- Nothing: it is settled, has no room, or is offered nothing. -/
  | closed
  /-- Nothing: its first check would be below the minimum. -/
  | belowMinimum
  /-- A payment. -/
  | paid (amount : Int)
deriving Repr, DecidableEq

namespace Grant

/-- The amount that a grant moves. -/
def amount : Grant → Int
  | .paid amount => amount
  | _ => 0

/-- Whether a grant moves capital. -/
def isPaid : Grant → Bool
  | .paid _ => true
  | _ => false

end Grant

/-- What a company has been granted so far. -/
structure Account where
  companyId : String
  cap : Int
  /-- The bound that gave the cap. -/
  capReason : Reason
  policyDefaulted : Bool
  granted : Int
  /-- The account has reached its cap. -/
  settled : Bool
  /-- Pass of the last payment; zero without one. -/
  lastPaid : Nat
  /-- The latest pass left it out for the minimum of a first check. -/
  belowMinimum : Bool
deriving Repr, DecidableEq

namespace Account

/-- A new account; one without room is settled from the start. -/
def opened
    (companyId : String)
    (cap : Cap) :
    Account where
  companyId := companyId
  cap := max 0 cap.amount
  capReason := cap.reason
  policyDefaulted := cap.policyDefaulted
  granted := 0
  settled := decide (max 0 cap.amount = 0)
  lastPaid := 0
  belowMinimum := false

/-- What an account can still take. -/
def room (account : Account) : Int :=
  max 0 (account.cap - account.granted)

/--
What an account gets when `pool` is left.

The offer is cut to the room of the account and to the pool. The minimum is
compared with what remains after that, and only for a first check.
-/
def grant
    (minimum pool : Int)
    (offer : Offer)
    (account : Account) :
    Grant :=
  let available := min account.room pool
  let offered := offer.limit available
  if account.settled ∨ available ≤ 0 then
    .closed
  else if account.granted = 0 ∧ offered < minimum then
    .belowMinimum
  else if offered = 0 then
    .closed
  else
    .paid offered

/-- Whether an account would be paid if it were offered all it can take. -/
def isOpen
    (minimum pool : Int)
    (account : Account) :
    Bool :=
  (account.grant minimum pool .unlimited).isPaid

/-- The account at the start of a pass with the given offer. -/
def facing
    (offer : Offer)
    (account : Account) :
    Account :=
  { account with belowMinimum := offer.holdsBack }

/-- The account after a grant in the given pass. -/
def receive
    (pass : Nat)
    (grant : Grant)
    (account : Account) :
    Account :=
  match grant with
  | .closed => account
  | .belowMinimum => { account with belowMinimum := true }
  | .paid amount =>
      { account with
        granted := account.granted + amount
        settled := decide (amount = account.room)
        lastPaid := pass }

/-- Why the account stands where it does, when `pool` is left. -/
def reason
    (pool : Int)
    (account : Account) :
    Reason :=
  if account.settled then
    account.capReason
  else if account.belowMinimum then
    .belowMinimum
  else if pool = 0 then
    .capitalExhausted
  else
    .passLimit

/-- No account has less than no room. -/
theorem room_nonneg
    (account : Account) :
    0 ≤ account.room := by
  simp only [room]
  omega

/-- A payment is positive and stays within the room and the pool. -/
theorem paid_bounds
    {minimum pool amount : Int}
    {offer : Offer}
    {account : Account}
    (granted : account.grant minimum pool offer = .paid amount) :
    0 < amount ∧ amount ≤ account.room ∧ amount ≤ pool := by
  simp only [grant] at granted
  split at granted
  · cases granted
  · split at granted
    · cases granted
    · split at granted
      · cases granted
      · rename_i hasRoom _ notZero
        injection granted with same
        subst same
        cases offer <;> simp only [Offer.limit] at * <;> omega

/-- No grant exceeds the pool. -/
theorem amount_grant_le
    {minimum pool : Int}
    (poolNotNegative : 0 ≤ pool)
    (offer : Offer)
    (account : Account) :
    (account.grant minimum pool offer).amount ≤ pool := by
  cases given : account.grant minimum pool offer with
  | closed => simpa [Grant.amount] using poolNotNegative
  | belowMinimum => simpa [Grant.amount] using poolNotNegative
  | paid amount => exact (paid_bounds given).2.2

/-- No grant is below zero. -/
theorem amount_grant_nonneg
    (minimum pool : Int)
    (offer : Offer)
    (account : Account) :
    0 ≤ (account.grant minimum pool offer).amount := by
  cases given : account.grant minimum pool offer with
  | closed => simp [Grant.amount]
  | belowMinimum => simp [Grant.amount]
  | paid amount => exact Int.le_of_lt (paid_bounds given).1

end Account

end FollowOn

import FollowOn.Ledger.Basic

namespace FollowOn

/-!
# The turn of an account in a pass

In a pass every account has one turn: it faces its offer and receives its
grant. This module says exactly when each kind of grant is made, and what a
turn does to an account that is sound, that is, whose amounts agree with its
cap and its settled mark.
-/

namespace Offer

/-- No offer limits an amount to less than nothing. -/
theorem limit_nonneg
    (offer : Offer)
    {amount : Int}
    (notNegative : 0 ≤ amount) :
    0 ≤ offer.limit amount := by
  cases offer <;> simp only [limit] <;> omega

end Offer

namespace Account

/-- What a payment tells about the account and its offer. -/
theorem paid_inversion
    {minimum pool amount : Int}
    {offer : Offer}
    {account : Account}
    (paid : account.grant minimum pool offer = .paid amount) :
    account.settled = false ∧
      amount = offer.limit (min account.room pool) ∧
      (account.granted = 0 → minimum ≤ amount) := by
  simp only [grant] at paid
  split at paid
  · cases paid
  · rename_i canTake
    split at paid
    · cases paid
    · rename_i meetsMinimum
      split at paid
      · cases paid
      · injection paid with same
        subst same
        simp only [not_or, not_and, Bool.not_eq_true] at canTake meetsMinimum
        exact ⟨canTake.1, rfl, fun unpaid => by
          have enough := meetsMinimum unpaid
          omega⟩

/-- What a refusal for the minimum tells about the account and its offer. -/
theorem belowMinimum_inversion
    {minimum pool : Int}
    {offer : Offer}
    {account : Account}
    (refused : account.grant minimum pool offer = .belowMinimum) :
    account.settled = false ∧
      account.granted = 0 ∧
      0 < min account.room pool ∧
      offer.limit (min account.room pool) < minimum := by
  simp only [grant] at refused
  split at refused
  · cases refused
  · rename_i canTake
    split at refused
    · rename_i missesMinimum
      simp only [not_or, Bool.not_eq_true] at canTake
      exact ⟨canTake.1, missesMinimum.1, by omega, missesMinimum.2⟩
    · split at refused <;> cases refused

/-- Why an account may be passed over without a mark. -/
theorem closed_inversion
    {minimum pool : Int}
    {offer : Offer}
    {account : Account}
    (closed : account.grant minimum pool offer = .closed) :
    account.settled = true ∨
      min account.room pool ≤ 0 ∨
      (offer.limit (min account.room pool) = 0 ∧
        (account.granted = 0 → minimum ≤ 0)) := by
  simp only [grant] at closed
  split at closed
  · rename_i cannotTake
    rcases cannotTake with settled | noRoom
    · exact Or.inl settled
    · exact Or.inr (Or.inl noRoom)
  · split at closed
    · cases closed
    · rename_i meetsMinimum
      split at closed
      · rename_i offeredNothing
        refine Or.inr (Or.inr ⟨offeredNothing, ?_⟩)
        intro unpaid
        rw [offeredNothing] at meetsMinimum
        omega
      · cases closed

/-- Nothing is refused for a minimum of zero. -/
theorem minimum_pos_of_belowMinimum
    {minimum pool : Int}
    {offer : Offer}
    {account : Account}
    (refused : account.grant minimum pool offer = .belowMinimum) :
    0 < minimum := by
  obtain ⟨-, -, hasRoom, tooSmall⟩ := belowMinimum_inversion refused
  have offered :=
    offer.limit_nonneg (Int.le_of_lt hasRoom)
  exact Int.lt_of_le_of_lt offered tooSmall

/-- No grant exceeds the room of the account. -/
theorem amount_grant_le_room
    (minimum pool : Int)
    (offer : Offer)
    (account : Account) :
    (account.grant minimum pool offer).amount ≤ account.room := by
  cases given : account.grant minimum pool offer with
  | closed => exact account.room_nonneg
  | belowMinimum => exact account.room_nonneg
  | paid amount => exact (paid_bounds given).2.1

/-- Who is held back is granted nothing. -/
theorem amount_grant_heldBack
    (minimum pool : Int)
    (account : Account) :
    (account.grant minimum pool .heldBack).amount = 0 := by
  cases given : account.grant minimum pool .heldBack with
  | closed =>
      rfl
  | belowMinimum =>
      rfl
  | paid amount =>
      have bounds := paid_bounds given
      obtain ⟨-, offered, -⟩ := paid_inversion given
      simp only [Offer.limit] at offered
      omega

/-- The account after its turn in a pass, when `pool` is left. -/
def turn
    (minimum pool : Int)
    (pass : Nat)
    (offer : Offer)
    (account : Account) :
    Account :=
  (account.facing offer).receive pass
    (account.grant minimum pool offer)

section Turn

variable
    (minimum pool : Int)
    (pass : Nat)
    (offer : Offer)
    (account : Account)

/-- A turn does not change whose account it is. -/
@[simp] theorem companyId_turn :
    (account.turn minimum pool pass offer).companyId =
      account.companyId := by
  unfold turn receive
  split <;> rfl

/-- A turn does not change the cap. -/
@[simp] theorem cap_turn :
    (account.turn minimum pool pass offer).cap = account.cap := by
  unfold turn receive
  split <;> rfl

/-- A turn does not change why the cap is what it is. -/
@[simp] theorem capReason_turn :
    (account.turn minimum pool pass offer).capReason =
      account.capReason := by
  unfold turn receive
  split <;> rfl

/-- A turn does not change whether a policy was missing. -/
@[simp] theorem policyDefaulted_turn :
    (account.turn minimum pool pass offer).policyDefaulted =
      account.policyDefaulted := by
  unfold turn receive
  split <;> rfl

/-- A turn adds its grant to what was granted before. -/
@[simp] theorem granted_turn :
    (account.turn minimum pool pass offer).granted =
      account.granted +
        (account.grant minimum pool offer).amount := by
  unfold turn
  cases account.grant minimum pool offer <;>
    simp [receive, facing, Grant.amount]

/-- After a turn an account is settled if it was, or if the grant fills it. -/
theorem settled_turn :
    (account.turn minimum pool pass offer).settled =
      match account.grant minimum pool offer with
      | .paid amount => decide (amount = account.room)
      | _ => account.settled := by
  unfold turn
  cases account.grant minimum pool offer <;> rfl

/-- Only a payment changes the pass of the last payment. -/
theorem lastPaid_turn :
    (account.turn minimum pool pass offer).lastPaid =
      match account.grant minimum pool offer with
      | .paid _ => pass
      | _ => account.lastPaid := by
  unfold turn
  cases account.grant minimum pool offer <;> rfl

/-- After a turn an account is marked if it was held back or refused. -/
theorem belowMinimum_turn :
    (account.turn minimum pool pass offer).belowMinimum =
      (offer.holdsBack ||
        decide
          (account.grant minimum pool offer = .belowMinimum)) := by
  unfold turn
  cases account.grant minimum pool offer <;>
    simp [receive, facing]

end Turn

/-- The amounts of an account agree with its cap and its settled mark. -/
structure Sound (account : Account) : Prop where
  granted_nonneg : 0 ≤ account.granted
  granted_le_cap : account.granted ≤ account.cap
  settled_iff :
    account.settled = true ↔ account.granted = account.cap

/-- A new account was granted nothing. -/
@[simp] theorem granted_opened
    (companyId : String)
    (cap : Cap) :
    (opened companyId cap).granted = 0 := rfl

/-- A new account was not paid in any pass. -/
@[simp] theorem lastPaid_opened
    (companyId : String)
    (cap : Cap) :
    (opened companyId cap).lastPaid = 0 := rfl

/-- A new account is sound, as a cap below zero is opened as zero. -/
theorem sound_opened
    (companyId : String)
    (cap : Cap) :
    (opened companyId cap).Sound where
  granted_nonneg := Int.le_refl 0
  granted_le_cap := Int.le_max_left 0 cap.amount
  settled_iff := by
    simp only [opened, decide_eq_true_eq]
    exact eq_comm

/-- A new account takes all it can, or nothing if that is below the minimum. -/
theorem grant_opened
    {cap : Cap}
    (capNotNegative : 0 ≤ cap.amount)
    {pool : Int}
    (poolNotNegative : 0 ≤ pool)
    (minimum : Int)
    (companyId : String) :
    (opened companyId cap).grant minimum pool .unlimited =
      if min cap.amount pool = 0 then
        .closed
      else if min cap.amount pool < minimum then
        .belowMinimum
      else
        .paid (min cap.amount pool) := by
  have room : (opened companyId cap).room = cap.amount := by
    simp only [Account.room, opened]
    omega
  have settled :
      (opened companyId cap).settled =
        decide (max 0 cap.amount = 0) := rfl
  have offered :
      Offer.unlimited.limit (min cap.amount pool) =
        min cap.amount pool := rfl
  simp only [grant, room, granted_opened, settled, offered,
    decide_eq_true_eq, true_and]
  by_cases nothing : min cap.amount pool = 0
  · rw [if_pos (Or.inr (by omega)), if_pos nothing]
  · rw [if_neg (by omega), if_neg nothing, if_neg nothing]

namespace Sound

/-- The room of a sound account is what its cap leaves, without a cut at zero. -/
theorem room_eq
    {account : Account}
    (sound : account.Sound) :
    account.room = account.cap - account.granted := by
  have bounded := sound.granted_le_cap
  simp only [room]
  omega

/-- With room and capital left, an account is passed over only if it is offered nothing. -/
theorem limit_eq_zero_of_closed
    {account : Account}
    (sound : account.Sound)
    {minimum pool : Int}
    {offer : Offer}
    (belowCap : account.granted < account.cap)
    (hasPool : 0 < pool)
    (closed : account.grant minimum pool offer = .closed) :
    offer.limit (min account.room pool) = 0 ∧
      (account.granted = 0 → minimum ≤ 0) := by
  have room := sound.room_eq
  rcases closed_inversion closed with settled | noRoom | offeredNothing
  · have full := sound.settled_iff.mp settled
    exact (Int.ne_of_lt belowCap full).elim
  · have hasRoom : 0 < min account.room pool := by
      omega
    exact (Int.not_lt.mpr noRoom hasRoom).elim
  · exact offeredNothing

/-- A turn keeps an account sound. -/
theorem turn
    {account : Account}
    (sound : account.Sound)
    (minimum pool : Int)
    (pass : Nat)
    (offer : Offer) :
    (account.turn minimum pool pass offer).Sound := by
  have room := sound.room_eq
  have bounded := sound.granted_le_cap
  have notNegative := sound.granted_nonneg
  have withinRoom := account.amount_grant_le_room minimum pool offer
  have added := account.amount_grant_nonneg minimum pool offer
  refine ⟨?_, ?_, ?_⟩
  · rw [granted_turn]
    omega
  · rw [granted_turn, cap_turn]
    omega
  · rw [settled_turn, granted_turn, cap_turn]
    cases account.grant minimum pool offer with
    | closed =>
        simpa [Grant.amount] using sound.settled_iff
    | belowMinimum =>
        simpa [Grant.amount] using sound.settled_iff
    | paid amount =>
        simp only [Grant.amount, decide_eq_true_eq]
        omega

/--
A sound account is open exactly if it has room, capital is left, and its
first check, if it is still to come, meets the minimum.
-/
theorem isOpen_iff
    {account : Account}
    (sound : account.Sound)
    {minimum pool : Int} :
    account.isOpen minimum pool = true ↔
      account.granted < account.cap ∧
        0 < pool ∧
        (account.granted = 0 →
          minimum ≤ min account.room pool) := by
  have bounded := sound.granted_le_cap
  have room := sound.room_eq
  constructor
  · intro opens
    cases given : account.grant minimum pool .unlimited with
    | closed => simp [isOpen, given, Grant.isPaid] at opens
    | belowMinimum => simp [isOpen, given, Grant.isPaid] at opens
    | paid amount =>
        have bounds := paid_bounds given
        obtain ⟨-, offered, meetsMinimum⟩ := paid_inversion given
        simp only [Offer.limit] at offered
        subst offered
        exact ⟨by omega, by omega, meetsMinimum⟩
  · rintro ⟨belowCap, hasPool, meetsMinimum⟩
    cases given : account.grant minimum pool .unlimited with
    | paid amount => simp [isOpen, given, Grant.isPaid]
    | closed =>
        have offeredNothing :=
          (sound.limit_eq_zero_of_closed belowCap hasPool given).1
        simp only [Offer.limit] at offeredNothing
        omega
    | belowMinimum =>
        obtain ⟨-, unpaid, -, tooSmall⟩ := belowMinimum_inversion given
        have enough := meetsMinimum unpaid
        simp only [Offer.limit] at tooSmall
        omega

end Sound

end Account

end FollowOn

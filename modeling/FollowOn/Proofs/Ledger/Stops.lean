import FollowOn.Proofs.Ledger.Rest
import Mathlib.Algebra.BigOperators.Group.List.Basic

namespace FollowOn

/-!
# Why remainder passes stop

From a sound ledger every remainder pass moves capital, so remainder passes
stop for one of three reasons only, and each is told by the ledger that they
leave: its pool is empty, nobody can be paid, or neither, and then the limit is
used up. What the report counts is what has changed, and the last pass has paid
somebody.
-/

namespace Ledger

/-- A pass that moves capital leaves it on record with whoever was paid. -/
theorem exists_lastPaid_of_allocated
    {ledger : Ledger}
    {offers : List (Account × Offer)}
    (moved : (ledger.runOffers offers).2.allocated ≠ 0) :
    ∃ account ∈ (ledger.runOffers offers).1.accounts,
      account.lastPaid = (ledger.runOffers offers).1.passes := by
  obtain ⟨amount, member, notZero⟩ :=
    List.exists_mem_ne_zero_of_sum_ne_zero moved
  obtain ⟨⟨account, grant⟩, inServed, same⟩ := List.mem_map.mp member
  refine
    ⟨account.receive (ledger.passes + 1) grant,
      List.mem_map_of_mem (f := fun served : Account × Grant =>
        served.1.receive (ledger.passes + 1) served.2) inServed, ?_⟩
  cases grant with
  | closed => exact (notZero same.symm).elim
  | belowMinimum => exact (notZero same.symm).elim
  | paid amount => rfl

/--
Remainder passes from a sound ledger: they end at rest, at the limit, or go on
after a pass that has moved capital.
-/
theorem Sound.remainder_induction
    {motive : Nat → Ledger → Ledger × RemainderReport → Prop}
    (resting :
      ∀ limit ledger stop,
        ledger.Sound →
        ledger.atRest? = some stop →
        motive limit ledger (ledger, ⟨0, 0, stop⟩))
    (limited :
      ∀ ledger,
        ledger.Sound →
        ¬ledger.AtRest →
        motive 0 ledger (ledger, ⟨0, 0, .passLimit⟩))
    (pass :
      ∀ left ledger,
        ledger.Sound →
        ¬ledger.AtRest →
        0 < ledger.runPass.2.allocated →
        motive left ledger.runPass.1
          (redistribute left ledger.runPass.1) →
        motive (left + 1) ledger
          ((redistribute left ledger.runPass.1).1,
            (redistribute left ledger.runPass.1).2.after
              ledger.runPass.2))
    {ledger : Ledger}
    (sound : ledger.Sound)
    (limit : Nat) :
    motive limit ledger (redistribute limit ledger) := by
  induction limit generalizing ledger with
  | zero =>
      cases rests : ledger.atRest? with
      | some stop =>
          rw [redistribute_of_atRest rests]
          exact resting 0 ledger stop sound rests
      | none =>
          have isLimited :
              redistribute 0 ledger = (ledger, ⟨0, 0, .passLimit⟩) := by
            simp [redistribute, rests]
          rw [isLimited]
          exact limited ledger sound (atRest?_eq_none_iff.mp rests)
  | succ left inductionHypothesis =>
      cases rests : ledger.atRest? with
      | some stop =>
          rw [redistribute_of_atRest rests]
          exact resting (left + 1) ledger stop sound rests
      | none =>
          have active := atRest?_eq_none_iff.mp rests
          have moves := allocated_runPass_pos sound active
          rw [redistribute_succ rests, if_neg (Int.ne_of_gt moves)]
          exact
            pass left ledger sound active moves
              (inductionHypothesis (PassesTo.shared.sound sound))

/-- A ledger with open room is not at rest; there is no open room without a pool. -/
theorem Sound.not_atRest_of_hasOpenRoom
    {ledger : Ledger}
    (sound : ledger.Sound)
    (someone : ledger.hasOpenRoom = true) :
    ¬ledger.AtRest := by
  obtain ⟨account, member, opens⟩ := List.any_eq_true.mp someone
  obtain ⟨-, hasPool, -⟩ :=
    (sound.accounts_sound account member).isOpen_iff.mp opens
  exact sound.not_atRest_iff.mpr ⟨hasPool, someone⟩

/-- A ledger rests because its pool is empty or because nobody can be paid. -/
theorem eq_poolExhausted_or_noRoom_of_atRest?
    {ledger : Ledger}
    {stop : StopReason}
    (rests : ledger.atRest? = some stop) :
    stop = .poolExhausted ∨ stop = .noRoom := by
  unfold atRest? at rests
  split at rests
  · exact Or.inl (Option.some.inj rests).symm
  · split at rests
    · cases rests
    · exact Or.inr (Option.some.inj rests).symm

section Redistribute

variable
    {ledger : Ledger}
    (sound : ledger.Sound)
    (limit : Nat)

include sound

/-- Remainder passes stop for what keeps the last ledger at rest, or for their limit. -/
theorem stop_redistribute :
    (redistribute limit ledger).2.stop =
      (redistribute limit ledger).1.atRest?.getD .passLimit := by
  refine
    sound.remainder_induction
      (motive := fun _ _ result =>
        result.2.stop = result.1.atRest?.getD .passLimit)
      ?_ ?_ ?_ limit
  · intro _ resting stop _ rests
    simp [rests]
  · intro active _ notAtRest
    simp [atRest?_eq_none_iff.mpr notAtRest]
  · intro _ _ _ _ _ followed
    exact followed

/-- Unless the limit stopped them, remainder passes stop for what keeps the last ledger at rest. -/
theorem stop_redistribute_eq_iff
    (stop : StopReason)
    (notLimit : stop ≠ .passLimit) :
    (redistribute limit ledger).2.stop = stop ↔
      (redistribute limit ledger).1.atRest? = some stop := by
  rw [stop_redistribute sound, Option.getD_eq_iff]
  simp [notLimit.symm]

/-- The limit is named as the reason exactly if the ledger has not come to rest. -/
theorem stop_redistribute_eq_passLimit_iff :
    (redistribute limit ledger).2.stop = .passLimit ↔
      ¬(redistribute limit ledger).1.AtRest := by
  rw [stop_redistribute sound, Option.getD_eq_iff,
    ← atRest?_eq_none_iff]
  constructor
  · rintro (rests | ⟨active, -⟩)
    · rcases eq_poolExhausted_or_noRoom_of_atRest? rests with
        isOther | isOther <;> cases isOther
    · exact active
  · intro active
    exact Or.inr ⟨active, rfl⟩

/-- Remainder passes leave a sound ledger sound. -/
theorem sound_redistribute :
    (redistribute limit ledger).1.Sound :=
  redistribute_induction (fun _ => PassesTo.shared.sound) sound limit

/-- Remainder passes report as moved what they take from the pool. -/
theorem pool_redistribute :
    (redistribute limit ledger).1.pool =
      ledger.pool - (redistribute limit ledger).2.allocated := by
  refine
    sound.remainder_induction
      (motive := fun _ before result =>
        result.1.pool = before.pool - result.2.allocated)
      ?_ ?_ ?_ limit
  · intro _ resting _ _ _
    exact (Int.sub_zero resting.pool).symm
  · intro active _ _
    exact (Int.sub_zero active.pool).symm
  · intro left active _ _ _ followed
    have first :
        active.runPass.1.pool =
          active.pool - active.runPass.2.allocated := rfl
    simp only [RemainderReport.after, followed, first]
    omega

/-- The last of some remainder passes has paid somebody. -/
theorem exists_lastPaid_redistribute
    (ran : 0 < (redistribute limit ledger).2.passes) :
    ∃ account ∈ (redistribute limit ledger).1.accounts,
      account.lastPaid = (redistribute limit ledger).1.passes := by
  refine
    (sound.remainder_induction
      (motive := fun _ before result =>
        (result.2.passes = 0 → result.1 = before) ∧
          (0 < result.2.passes →
            ∃ account ∈ result.1.accounts,
              account.lastPaid = result.1.passes))
      ?_ ?_ ?_ limit).2 ran
  · intro _ _ _ _ _
    exact ⟨fun _ => rfl, fun ran => (Nat.lt_irrefl 0 ran).elim⟩
  · intro _ _ _
    exact ⟨fun _ => rfl, fun ran => (Nat.lt_irrefl 0 ran).elim⟩
  · rintro left active - - moves ⟨unchanged, paid⟩
    refine ⟨fun none => (Nat.succ_ne_zero _ none).elim, fun _ => ?_⟩
    rcases Nat.eq_zero_or_pos
        (redistribute left active.runPass.1).2.passes with none | more
    · rw [unchanged none]
      exact exists_lastPaid_of_allocated (Int.ne_of_gt moves)
    · exact paid more

end Redistribute

/-- Nobody can be paid exactly if capital is left that is too little for any first check. -/
theorem atRest?_eq_noRoom_iff
    {ledger : Ledger}
    (sound : ledger.Sound) :
    ledger.atRest? = some .noRoom ↔
      0 < ledger.pool ∧
        ∀ account ∈ ledger.accounts,
          account.settled = false →
            account.granted = 0 ∧
              0 < ledger.minimum ∧
              min account.cap ledger.pool < ledger.minimum := by
  have notNegative := sound.pool_nonneg
  constructor
  · intro rests
    have resting : ledger.AtRest := by
      by_contra active
      rw [atRest?_eq_none_iff.mpr active] at rests
      cases rests
    have hasPool : 0 < ledger.pool := by
      by_contra empty
      have isEmpty : ledger.pool = 0 := by
        omega
      simp [atRest?, isEmpty] at rests
    refine ⟨hasPool, ?_⟩
    intro account member unsettled
    have accountSound := sound.accounts_sound account member
    have bounded := accountSound.granted_le_cap
    have notFull := mt accountSound.settled_iff.mpr (by simp [unsettled])
    rcases sound.full_or_belowMinimum_of_atRest resting hasPool
        member with full | ⟨unpaid, tooSmall⟩
    · exact (notFull full).elim
    · exact ⟨unpaid, by omega, tooSmall⟩
  · rintro ⟨hasPool, tooSmall⟩
    have nobody : ledger.hasOpenRoom = false := by
      simp only [hasOpenRoom, List.any_eq_false]
      intro account member opens
      have accountSound := sound.accounts_sound account member
      have room := accountSound.room_eq
      obtain ⟨belowCap, -, meetsMinimum⟩ :=
        accountSound.isOpen_iff.mp opens
      have unsettled : account.settled = false := by
        rw [← Bool.not_eq_true, accountSound.settled_iff]
        omega
      obtain ⟨unpaid, -, less⟩ := tooSmall account member unsettled
      have atLeast := meetsMinimum unpaid
      omega
    simp [atRest?, Int.ne_of_gt hasPool, nobody]

/-- An exhausted pool is named exactly if the pool is empty, whatever else holds. -/
theorem atRest?_eq_poolExhausted_iff
    {ledger : Ledger} :
    ledger.atRest? = some .poolExhausted ↔ ledger.pool = 0 := by
  unfold atRest?
  split
  · simp [*]
  · split <;> simp [*]

end Ledger

end FollowOn

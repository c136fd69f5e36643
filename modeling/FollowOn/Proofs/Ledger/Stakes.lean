import FollowOn.Proofs.Checked.Weighted
import FollowOn.Proofs.Ledger.Course

namespace FollowOn

/-!
# Who takes part in a weighted pass to its end

Before a weighted pass pays anybody, blocked accounts drop out one at a time.
Nothing else changes about the stakes on the way: each account keeps its place
and its weight, and whoever is left was open at the start. Every drop takes one
admitted account away, so in the end nobody is blocked.
-/

section Stakes

variable
    {minimum pool : Int}

/-- A stake stays as it is or drops out. -/
def Stake.MayDropOut (before after : Stake) : Prop :=
  after = before ∨ after = before.retire

/-- Retiring one stake is among what rounds may do to all of them. -/
theorem forall₂_modify_retire
    (stakes : List Stake)
    (place : Nat) :
    List.Forall₂ Stake.MayDropOut stakes
      (stakes.modify place Stake.retire) := by
  induction stakes generalizing place with
  | nil =>
      rw [List.modify_nil]
      exact .nil
  | cons stake rest inductionHypothesis =>
      cases place with
      | zero =>
          exact
            .cons (Or.inr rfl)
              (List.forall₂_same.mpr fun _ _ => Or.inl rfl)
      | succ place =>
          exact .cons (Or.inl rfl) (inductionHypothesis place)

/-- What several rounds do to a stake, one may do. -/
theorem Stake.MayDropOut.trans
    {first second third : Stake}
    (earlier : first.MayDropOut second)
    (later : second.MayDropOut third) :
    first.MayDropOut third := by
  rcases earlier with kept | retired
  · rwa [kept] at later
  · rcases later with kept | retiredAgain
    · exact Or.inr (kept.trans retired)
    · rw [retired] at retiredAgain
      exact Or.inr retiredAgain

/-- Dropping blocked accounts changes nothing about a stake but that it may drop out. -/
theorem forall₂_dropBlocked
    (drops : Nat)
    (stakes : List Stake) :
    List.Forall₂ Stake.MayDropOut stakes
      (dropBlocked minimum pool drops stakes) := by
  induction drops generalizing stakes with
  | zero =>
      exact List.forall₂_same.mpr fun _ _ => Or.inl rfl
  | succ drops inductionHypothesis =>
      rw [dropBlocked, Checked.retireLast?_eq]
      cases Checked.lastPlace?
          (Stake.isBlocked minimum pool (admittedWeight stakes))
          stakes with
      | none =>
          exact List.forall₂_same.mpr fun _ _ => Or.inl rfl
      | some place =>
          exact
            forall₂_trans (fun _ _ _ => .trans)
              (forall₂_modify_retire stakes place)
              (inductionHypothesis _)

/-- If no last place is found, nobody is blocked. -/
theorem not_blocked_of_lastPlace?
    {blocked : Stake → Bool}
    {stakes : List Stake}
    (nobody : Checked.lastPlace? blocked stakes = none)
    {stake : Stake}
    (member : stake ∈ stakes) :
    blocked stake = false := by
  obtain ⟨place, inside, isStake⟩ := List.getElem_of_mem member
  have atPlace :=
    List.find?_eq_none.mp nobody place
      (List.mem_reverse.mpr (List.mem_range.mpr inside))
  rw [List.getElem?_eq_getElem inside, isStake] at atPlace
  simpa using atPlace

/-- With a drop for each admitted account, nobody is blocked in the end. -/
theorem not_isBlocked_dropBlocked
    {drops : Nat}
    {stakes : List Stake}
    (enough : stakes.countP Stake.isAdmitted ≤ drops)
    {stake : Stake}
    (member : stake ∈ dropBlocked minimum pool drops stakes) :
    stake.isBlocked minimum pool
      (admittedWeight (dropBlocked minimum pool drops stakes)) =
        false := by
  induction drops generalizing stakes with
  | zero =>
      have notAdmitted :=
        List.countP_eq_zero.mp (Nat.le_zero.mp enough) stake member
      simp [Stake.isBlocked, notAdmitted]
  | succ drops inductionHypothesis =>
      rw [dropBlocked, Checked.retireLast?_eq] at member ⊢
      cases last :
          Checked.lastPlace?
            (Stake.isBlocked minimum pool (admittedWeight stakes))
            stakes with
      | none =>
          simp only [last, Option.map_none] at member ⊢
          exact not_blocked_of_lastPlace? last member
      | some place =>
          simp only [last, Option.map_some] at member ⊢
          obtain ⟨blockedStake, atPlace, blocked⟩ :=
            Checked.exists_blocked_of_lastPlace? last
          have fewer :=
            Checked.countP_modify_retire atPlace
              (Stake.isAdmitted_of_isBlocked blocked)
          exact inductionHypothesis (by omega) member

/-- If nobody is blocked, nobody drops out. -/
theorem dropBlocked_eq_self
    {stakes : List Stake}
    (nobody :
      ∀ stake ∈ stakes,
        stake.isBlocked minimum pool (admittedWeight stakes) = false)
    (drops : Nat) :
    dropBlocked minimum pool drops stakes = stakes := by
  cases drops with
  | zero =>
      rfl
  | succ drops =>
      rw [dropBlocked, Checked.retireLast?_eq]
      cases last :
          Checked.lastPlace?
            (Stake.isBlocked minimum pool (admittedWeight stakes))
            stakes with
      | none =>
          rfl
      | some place =>
          obtain ⟨stake, atPlace, blocked⟩ :=
            Checked.exists_blocked_of_lastPlace? last
          rw [nobody stake (List.mem_of_getElem? atPlace)] at blocked
          cases blocked

end Stakes

namespace Ledger

variable
    {weights : List Nat}
    {ledger : Ledger}

/-- The weight of the accounts that take part in a weighted pass to its end. -/
def weightLeft
    (weights : List Nat)
    (ledger : Ledger) :
    Nat :=
  admittedWeight (ledger.settledStakes weights)

/-- An account keeps its place and its weight, whether it drops out or not. -/
theorem map_account_weight_settledStakes
    (weights : List Nat)
    (ledger : Ledger) :
    ((ledger.settledStakes weights).map fun stake =>
        (stake.account, stake.weight)) =
      ledger.accounts.zipIdx.map fun (account, place) =>
        (account, (normalizeWeights weights)[place]?.getD 0) := by
  have kept :
      ((ledger.settledStakes weights).map fun stake =>
          (stake.account, stake.weight)) =
        (ledger.stakes weights).map fun stake =>
          (stake.account, stake.weight) := by
    rw [← List.forall₂_eq_eq_eq, List.forall₂_map_left_iff,
      List.forall₂_map_right_iff]
    refine List.Forall₂.flip
      ((forall₂_dropBlocked _ _).imp fun before after changes => ?_)
    rcases changes with same | retired
    · simp [flip, same]
    · simp [flip, retired]
  rw [kept, stakes, List.map_map]
  rfl

/-- Whoever takes part to the end was open at the start. -/
theorem opens_of_mem_settledStakes
    {stake : Stake}
    (member : stake ∈ ledger.settledStakes weights)
    (isAdmitted : stake.isAdmitted = true) :
    ledger.opens stake.account = true := by
  obtain ⟨before, inStakes, changes⟩ :=
    exists_mem_left_of_forall₂ (forall₂_dropBlocked _ _) member
  rcases changes with same | retired
  · obtain ⟨⟨account, place⟩, -, isStake⟩ :=
      List.mem_map.mp inStakes
    rw [same, ← isStake] at isAdmitted ⊢
    by_contra closed
    simp [Stake.isAdmitted, closed] at isAdmitted
  · rw [retired] at isAdmitted
    cases isAdmitted

/-- Once the rounds have ended, nobody is blocked by the minimum. -/
theorem not_isBlocked_settledStakes
    {stake : Stake}
    (member : stake ∈ ledger.settledStakes weights) :
    stake.isBlocked ledger.minimum ledger.pool
      (ledger.weightLeft weights) = false :=
  not_isBlocked_dropBlocked
    (Checked.countP_isAdmitted_stakes_le weights ledger) member

/-- Without a minimum everybody who is open takes part to the end. -/
theorem settledStakes_of_minimum_eq_zero
    (noMinimum : ledger.minimum = 0)
    (weights : List Nat) :
    ledger.settledStakes weights = ledger.stakes weights := by
  apply dropBlocked_eq_self
  intro stake _
  rw [← Bool.not_eq_true, Stake.isBlocked, Bool.and_eq_true,
    decide_eq_true_eq]
  rintro ⟨-, refused⟩
  have positive := Account.minimum_pos_of_belowMinimum refused
  omega

/-- The rounds leave the accounts of the stakes sound. -/
theorem sound_of_mem_settledStakes
    (sound : ledger.Sound)
    {stake : Stake}
    (member : stake ∈ ledger.settledStakes weights) :
    stake.account.Sound := by
  have inAccounts :
      (stake.account, stake.weight) ∈
        (ledger.settledStakes weights).map fun stake =>
          (stake.account, stake.weight) :=
    List.mem_map_of_mem member
  rw [map_account_weight_settledStakes] at inAccounts
  obtain ⟨⟨account, place⟩, inLedger, same⟩ :=
    List.mem_map.mp inAccounts
  injection same with sameAccount _
  rw [← sameAccount]
  exact
    sound.accounts_sound account
      (List.fst_mem_of_mem_zipIdx inLedger)

end Ledger

end FollowOn

import FollowOn.Proofs.Ledger.Precedence
import FollowOn.Proofs.Ledger.Stops
import Mathlib.Algebra.BigOperators.Group.List.Basic
import Mathlib.Algebra.Order.BigOperators.Group.List

namespace FollowOn

/-!
# Candidates of remainder passes

A pass by even shares may leave capital although it fills nobody up: an account
that was to be paid its first check is passed over once the pool has shrunk
below the minimum. That account can never be paid afterwards, so the measure
that falls with every pass is not the number of unsettled accounts but that of
candidates: those that are not settled and whose first check, if it is still to
come, the pool still reaches. If every candidate remained one, everybody who
takes part would have been paid a whole share, and those shares use up the pool.
-/

section Forall₂

variable
    {α β : Type}
    {related : α → β → Prop}
    {before : α → Bool}
    {after : β → Bool}
    {left : List α}
    {right : List β}

/--
Side by side, no more items pass a test on the right if each of them passes on
the left.
-/
theorem countP_le_of_forall₂
    (lists : List.Forall₂ related left right)
    (kept :
      ∀ first second,
        related first second →
        after second = true →
        before first = true) :
    right.countP after ≤ left.countP before := by
  induction lists with
  | nil =>
      exact Nat.le_refl 0
  | @cons first second rest restImage headRelated _
      inductionHypothesis =>
      by_cases counts : after second = true
      · rw [List.countP_cons_of_pos counts,
          List.countP_cons_of_pos (kept first second headRelated counts)]
        exact Nat.succ_le_succ inductionHypothesis
      · rw [List.countP_cons_of_neg counts]
        exact
          Nat.le_trans inductionHypothesis
            (List.sublist_cons_self first rest).countP_le

/-- If no fewer items count after than before, each that counted still does. -/
theorem forall₂_of_countP_le
    (lists : List.Forall₂ related left right)
    (kept :
      ∀ first second,
        related first second →
        after second = true →
        before first = true)
    (noFewer : left.countP before ≤ right.countP after) :
    List.Forall₂
      (fun first second =>
        related first second ∧
          (before first = true → after second = true))
      left right := by
  induction lists with
  | nil =>
      exact .nil
  | @cons first second rest restImage headRelated restRelated
      inductionHypothesis =>
      have restAtMost := countP_le_of_forall₂ restRelated kept
      by_cases counts : after second = true
      · have counted := kept first second headRelated counts
        rw [List.countP_cons_of_pos counts,
          List.countP_cons_of_pos counted] at noFewer
        exact
          .cons ⟨headRelated, fun _ => counts⟩
            (inductionHypothesis (Nat.le_of_succ_le_succ noFewer))
      · rw [List.countP_cons_of_neg counts] at noFewer
        by_cases counted : before first = true
        · rw [List.countP_cons_of_pos counted] at noFewer
          omega
        · rw [List.countP_cons_of_neg counted] at noFewer
          exact
            .cons ⟨headRelated, fun counted' => (counted counted').elim⟩
              (inductionHypothesis noFewer)

end Forall₂

/--
In a pass by shares, those who were funded before are offered the share, and of
those who wait, as many as there are places.
-/
theorem countP_offerShare
    {opens funded waits : Account → Bool}
    (share : Int)
    (places : Nat)
    (accounts : List Account)
    (waitsOpen :
      ∀ account ∈ accounts, waits account = true → opens account = true)
    (fundedOpen :
      ∀ account ∈ accounts,
        funded account = true →
          opens account = true ∧ waits account = false) :
    accounts.countP funded + min places (accounts.countP waits) ≤
      (offerShare waits share places accounts).countP fun offered =>
        opens offered.1 && decide (offered.2 = .upTo share) := by
  induction accounts generalizing places with
  | nil =>
      simp
  | cons account rest inductionHypothesis =>
      obtain ⟨waitsOpen, restWaitsOpen⟩ :=
        List.forall_mem_cons.mp waitsOpen
      obtain ⟨fundedOpen, restFundedOpen⟩ :=
        List.forall_mem_cons.mp fundedOpen
      have inRest (places : Nat) :=
        inductionHypothesis places restWaitsOpen restFundedOpen
      simp only [offerShare]
      by_cases waiting : waits account = true
      · have notFunded : ¬funded account = true := by
          intro isFunded
          rw [(fundedOpen isFunded).2] at waiting
          cases waiting
        rw [if_pos waiting, List.countP_cons_of_neg notFunded,
          List.countP_cons_of_pos waiting]
        cases places with
        | zero =>
            have followed := inRest 0
            rw [List.countP_cons_of_neg (by simp)]
            omega
        | succ left =>
            have followed := inRest left
            rw [List.countP_cons_of_pos
              (by simp [waitsOpen waiting])]
            omega
      · have followed := inRest places
        rw [if_neg waiting, List.countP_cons_of_neg waiting]
        by_cases isFunded : funded account = true
        · rw [List.countP_cons_of_pos isFunded,
            List.countP_cons_of_pos
              (by simp [(fundedOpen isFunded).1])]
          omega
        · rw [List.countP_cons_of_neg isFunded]
          exact
            Nat.le_trans followed
              (List.sublist_cons_self _ _).countP_le

/-- Even shares for everybody who takes part would spend the pool. -/
theorem pool_le_evenShare_mul
    (pool : Int)
    {count : Nat}
    (someone : 0 < count) :
    pool ≤ evenShare pool count * count := by
  by_contra leaves
  have larger : evenShare pool count + 1 ≤ evenShare pool count := by
    rw [le_evenShare_iff someone]
    simpa using leaves
  omega

/-- A sum in which some items count a share more. -/
theorem sum_map_add_share
    {α : Type}
    (amount : α → Int)
    (takes : α → Bool)
    (share : Int)
    (items : List α) :
    (items.map fun item =>
        amount item + if takes item then share else 0).sum =
      (items.map amount).sum + items.countP takes * share := by
  induction items with
  | nil =>
      simp
  | cons item rest inductionHypothesis =>
      simp only [List.map_cons, List.sum_cons, List.countP_cons,
        inductionHypothesis]
      split <;> simp [Int.add_mul] <;> omega

namespace Ledger

/--
An account is a candidate while it is not settled and, if its first check is
still to come, the pool reaches the minimum.
-/
def isCandidate
    (ledger : Ledger)
    (account : Account) :
    Bool :=
  !account.settled &&
    (account.granted != 0 || decide (ledger.minimum ≤ ledger.pool))

/-- How many accounts the passes to come may still pay. -/
def candidateCount (ledger : Ledger) : Nat :=
  ledger.accounts.countP ledger.isCandidate

/-- Number of accounts that have not reached their cap. -/
def unsettledCount (ledger : Ledger) : Nat :=
  ledger.accounts.countP fun account => !account.settled

/-- Only accounts that have not settled are candidates. -/
theorem candidateCount_le_unsettledCount
    (ledger : Ledger) :
    ledger.candidateCount ≤ ledger.unsettledCount := by
  apply List.countP_mono_left
  intro account _ candidate
  simp only [isCandidate, Bool.and_eq_true] at candidate
  exact candidate.1

/-- An account without anything is a candidate only while the pool can meet the minimum. -/
theorem isCandidate_iff
    {ledger : Ledger}
    {account : Account} :
    ledger.isCandidate account = true ↔
      account.settled = false ∧
        (account.granted = 0 → ledger.minimum ≤ ledger.pool) := by
  simp [isCandidate, imp_iff_not_or]

/-- Whether an account takes part in a pass by even shares that makes it an offer. -/
def takesPart
    (ledger : Ledger)
    (offered : Account × Offer) :
    Bool :=
  ledger.opens offered.1 && decide (offered.2 = .upTo ledger.share)

variable
    {ledger : Ledger}

/-- An open account is a candidate. -/
theorem isCandidate_of_opens
    (sound : ledger.Sound)
    {account : Account}
    (member : account ∈ ledger.accounts)
    (opens : ledger.opens account = true) :
    ledger.isCandidate account = true := by
  have accountSound := sound.accounts_sound account member
  obtain ⟨belowCap, -, meetsMinimum⟩ :=
    accountSound.isOpen_iff.mp opens
  rw [isCandidate_iff, ← Bool.not_eq_true, accountSound.settled_iff]
  refine ⟨by omega, fun unpaid => ?_⟩
  have atLeast := meetsMinimum unpaid
  omega

/-- Before a ledger comes to rest, there is a candidate. -/
theorem candidateCount_pos
    (sound : ledger.Sound)
    (active : ¬ledger.AtRest) :
    0 < ledger.candidateCount := by
  obtain ⟨-, someone⟩ := sound.not_atRest_iff.mp active
  obtain ⟨account, member, opens⟩ := List.any_eq_true.mp someone
  exact
    List.countP_pos_iff.mpr
      ⟨account, member, isCandidate_of_opens sound member opens⟩

/-- Nobody becomes a candidate in a pass. -/
theorem isCandidate_of_hasTurn
    (sound : ledger.Sound)
    {offers : List (Account × Offer)}
    {pass : Nat}
    {offered : Account × Offer}
    {account : Account}
    (hasTurn :
      HasTurn ledger.minimum ledger.pool
        (ledger.runOffers offers).1.pool pass offered account)
    (candidate : (ledger.runOffers offers).1.isCandidate account = true) :
    ledger.isCandidate offered.1 = true := by
  have smaller := (pool_runOffers_bounds sound offers).2
  obtain ⟨pool, atMost, -, isTurn⟩ := hasTurn
  obtain ⟨unsettled, reaches⟩ := isCandidate_iff.mp candidate
  rw [isTurn, Account.settled_turn] at unsettled
  rw [isTurn, Account.granted_turn, minimum_runOffers] at reaches
  rw [isCandidate_iff]
  cases given :
      offered.1.grant ledger.minimum pool offered.2 with
  | closed =>
      simp only [given, Grant.amount, Int.add_zero] at unsettled reaches
      exact
        ⟨unsettled, fun unpaid => Int.le_trans (reaches unpaid) smaller⟩
  | belowMinimum =>
      simp only [given, Grant.amount, Int.add_zero] at unsettled reaches
      exact
        ⟨unsettled, fun unpaid => Int.le_trans (reaches unpaid) smaller⟩
  | paid amount =>
      have bounds := Account.paid_bounds given
      obtain ⟨wasUnsettled, -, meetsMinimum⟩ :=
        Account.paid_inversion given
      refine ⟨wasUnsettled, fun unpaid => ?_⟩
      have atLeast := meetsMinimum unpaid
      omega

section EvenShare

variable
    (evenly : ledger.sharing = .evenShare)

include evenly

/-- Everyone who is funded or admitted takes part in an even pass. -/
theorem le_countP_takesPart :
    ledger.fundedCount + ledger.admitted ≤
      ledger.offers.countP ledger.takesPart := by
  have admittedAtMost :
      ledger.admitted ≤ ledger.accounts.countP ledger.waits :=
    admissions_le ..
  have fundedOpen :
      ∀ account ∈ ledger.accounts,
        (ledger.opens account && decide (0 < account.granted)) = true →
          ledger.opens account = true ∧
            ledger.waits account = false := by
    intro account _ funded
    simp only [Bool.and_eq_true, decide_eq_true_eq] at funded
    refine ⟨funded.1, ?_⟩
    simp only [waits, Bool.and_eq_false_iff, beq_eq_false_iff_ne]
    exact Or.inr (Int.ne_of_gt funded.2)
  have counted :=
    countP_offerShare ledger.share ledger.admitted ledger.accounts
      (fun _ _ => opens_of_waits) fundedOpen
  rw [Nat.min_eq_left admittedAtMost] at counted
  simp only [offers, evenly]
  exact counted

/-- An account without anything takes part only if the share meets the minimum. -/
theorem minimum_le_share_of_takesPart
    {offered : Account × Offer}
    (member : offered ∈ ledger.offers)
    (part : ledger.takesPart offered = true)
    (unpaid : offered.1.granted = 0) :
    ledger.minimum ≤ ledger.share := by
  simp only [takesPart, Bool.and_eq_true, decide_eq_true_eq] at part
  have waiting : ledger.waits offered.1 = true := by
    simp [waits, part.1, unpaid]
  apply minimum_le_evenShare_of_admissions
  apply Nat.pos_of_ne_zero
  intro nobody
  have noPlace : ledger.admitted = 0 := nobody
  simp only [offers, evenly, noPlace] at member
  rcases mem_offerShare_zero member with heldBack | doesNotWait
  · rw [part.2] at heldBack
    cases heldBack
  · rw [waiting] at doesNotWait
    cases doesNotWait

/--
Whoever takes part in a pass that leaves capital and is still a candidate
afterwards was paid the whole share.
-/
theorem share_le_of_isCandidate
    (sound : ledger.Sound)
    (leaves : 0 < ledger.runPass.1.pool)
    {offered : Account × Offer}
    (member : offered ∈ ledger.offers)
    (part : ledger.takesPart offered = true)
    {account : Account}
    (hasTurn :
      HasTurn ledger.minimum ledger.pool ledger.runPass.1.pool
        (ledger.passes + 1) offered account)
    (candidate : ledger.runPass.1.isCandidate account = true) :
    offered.1.granted + ledger.share ≤ account.granted := by
  have enough := minimum_le_share_of_takesPart evenly member part
  have earlierSound := sound.account_of_mem_offers member
  have room := earlierSound.room_eq
  simp only [takesPart, Bool.and_eq_true, decide_eq_true_eq] at part
  obtain ⟨opens, isShare⟩ := part
  obtain ⟨belowCap, hasPool, meetsMinimum⟩ :=
    earlierSound.isOpen_iff.mp opens
  have inLedger : offered.1 ∈ ledger.accounts := by
    rw [← map_fst_offers ledger]
    exact List.mem_map_of_mem member
  have sharePositive : 0 < ledger.share :=
    share_pos sound hasPool
      (List.any_eq_true.mpr ⟨offered.1, inLedger, opens⟩)
  obtain ⟨pool, -, left, isTurn⟩ := hasTurn
  have paid :=
    offered.1.amount_grant_nonneg ledger.minimum pool offered.2
  obtain ⟨unsettled, reaches⟩ := isCandidate_iff.mp candidate
  have sameMinimum : ledger.runPass.1.minimum = ledger.minimum := rfl
  rw [isTurn, Account.settled_turn] at unsettled
  rw [isTurn, Account.granted_turn, sameMinimum] at reaches
  rw [isTurn, Account.granted_turn]
  rw [isShare] at left paid unsettled reaches ⊢
  cases given :
      offered.1.grant ledger.minimum pool (.upTo ledger.share) with
  | closed =>
      have offeredNothing :=
        (earlierSound.limit_eq_zero_of_closed belowCap
          (by omega) given).1
      simp only [given, Grant.amount, Offer.limit] at offeredNothing left
      omega
  | belowMinimum =>
      -- The pool had shrunk below the minimum, so the first check can
      -- no longer be paid and the account is no candidate.
      obtain ⟨-, unpaid, -, tooSmall⟩ :=
        Account.belowMinimum_inversion given
      have wholeIsEnough := meetsMinimum unpaid
      have shareIsEnough := enough unpaid
      simp only [given, Grant.amount, Int.add_zero] at reaches left
      have stillEnough := reaches unpaid
      simp only [Offer.limit] at tooSmall
      omega
  | paid amount =>
      obtain ⟨-, offeredAmount, -⟩ := Account.paid_inversion given
      simp only [given, decide_eq_false_iff_not] at unsettled
      simp only [given, Grant.amount] at left ⊢
      simp only [Offer.limit] at offeredAmount
      omega

/-- If every candidate remains one, those who take part are paid a share each. -/
theorem share_mul_le_of_candidates_remain
    (sound : ledger.Sound)
    (leaves : 0 < ledger.runPass.1.pool)
    (remain :
      List.Forall₂
        (fun offered account =>
          HasTurn ledger.minimum ledger.pool ledger.runPass.1.pool
              (ledger.passes + 1) offered account ∧
            (ledger.isCandidate offered.1 = true →
              ledger.runPass.1.isCandidate account = true))
        ledger.offers
        ledger.runPass.1.accounts) :
    ledger.offers.countP ledger.takesPart * ledger.share ≤
      ledger.pool - ledger.runPass.1.pool := by
  have withMembers :=
    (List.forall₂_and_left ledger.offers _).mpr
      ⟨fun _ member => member, remain⟩
  have paid :
      List.Forall₂ (· ≤ ·)
        (ledger.offers.map fun offered =>
          offered.1.granted +
            if ledger.takesPart offered then ledger.share else 0)
        (ledger.runPass.1.accounts.map Account.granted) := by
    rw [List.forall₂_map_left_iff, List.forall₂_map_right_iff]
    refine withMembers.imp ?_
    rintro offered account ⟨member, hasTurn, remains⟩
    by_cases part : ledger.takesPart offered = true
    · rw [if_pos part]
      have inLedger : offered.1 ∈ ledger.accounts := by
        rw [← map_fst_offers ledger]
        exact List.mem_map_of_mem member
      have opens : ledger.opens offered.1 = true := by
        simp only [takesPart, Bool.and_eq_true] at part
        exact part.1
      exact
        share_le_of_isCandidate evenly sound leaves member part hasTurn
          (remains (isCandidate_of_opens sound inLedger opens))
    · obtain ⟨pool, -, -, isTurn⟩ := hasTurn
      have added :=
        offered.1.amount_grant_nonneg ledger.minimum pool offered.2
      rw [if_neg part, isTurn, Account.granted_turn]
      omega
  have total := paid.sum_le_sum
  have before :
      (ledger.offers.map fun offered => offered.1.granted).sum =
        ledger.allocatedTotal := by
    rw [allocatedTotal, ← map_fst_offers ledger, List.map_map]
    rfl
  have kept := capital_runOffers (suits_offers sound)
  rw [sum_map_add_share, before] at total
  simp only [capital, allocatedTotal] at kept total ⊢
  simp only [runPass] at total ⊢
  omega

/-- By even shares, a pass that leaves capital leaves fewer candidates. -/
theorem candidateCount_runPass_lt
    (sound : ledger.Sound)
    (active : ¬ledger.AtRest)
    (leaves : 0 < ledger.runPass.1.pool) :
    ledger.runPass.1.candidateCount < ledger.candidateCount := by
  obtain ⟨hasPool, someone⟩ := sound.not_atRest_iff.mp active
  obtain ⟨-, -, -, -, takePart, -⟩ :=
    exists_shared_of_hasOpenRoom sound someone
  have counted :
      ledger.candidateCount =
        ledger.offers.countP fun offered =>
          ledger.isCandidate offered.1 := by
    rw [candidateCount, ← map_fst_offers ledger, List.countP_map]
    rfl
  by_contra noFewer
  rw [counted, Nat.not_lt] at noFewer
  have remain :=
    forall₂_of_countP_le (forall₂_turns sound ledger.offers)
      (fun _ _ => isCandidate_of_hasTurn sound) noFewer
  have spent :=
    share_mul_le_of_candidates_remain evenly sound leaves remain
  have enough := pool_le_evenShare_mul ledger.pool takePart
  have atLeast :
      (ledger.fundedCount + ledger.admitted : Nat) * ledger.share ≤
        ledger.offers.countP ledger.takesPart * ledger.share :=
    Int.mul_le_mul_of_nonneg_right
      (Int.ofNat_le.mpr (le_countP_takesPart evenly))
      (evenShare_nonneg sound.pool_nonneg _)
  rw [Int.mul_comm] at enough
  change ledger.pool ≤ _ * ledger.share at enough
  omega

end EvenShare

/-- A pass leaves the ledger at rest, or fewer candidates. -/
theorem atRest_or_candidateCount_runPass_lt
    (sound : ledger.Sound)
    (active : ¬ledger.AtRest) :
    ledger.runPass.1.AtRest ∨
      ledger.runPass.1.candidateCount < ledger.candidateCount := by
  cases sharing : ledger.sharing with
  | greedy =>
      exact Or.inl (atRest_runPass_of_greedy sound sharing)
  | evenShare =>
      have bounds := pool_runOffers_bounds sound ledger.offers
      rcases Int.lt_or_eq_of_le bounds.1 with leaves | empty
      · exact
          Or.inr
            (candidateCount_runPass_lt sharing sound active leaves)
      · exact Or.inl (Or.inl empty.symm)

section Redistribute

variable
    (sound : ledger.Sound)

include sound

/-- Greedy remainder passes end with the first one. -/
theorem passes_redistribute_le_one
    (greedy : ledger.sharing = .greedy)
    (limit : Nat) :
    (redistribute limit ledger).2.passes ≤ 1 := by
  refine
    sound.remainder_induction
      (motive := fun _ before result =>
        before.sharing = .greedy → result.2.passes ≤ 1)
      ?_ ?_ ?_ limit greedy
  · intro _ _ _ _ _ _
    exact Nat.zero_le 1
  · intro _ _ _ _
    exact Nat.zero_le 1
  · intro left active activeSound _ _ _ greedy
    obtain ⟨stop, unchanged⟩ :=
      (atRest_runPass_of_greedy activeSound
        greedy).exists_redistribute_eq left
    rw [unchanged]
    exact Nat.le_refl 1

/-- There is a candidate for each remainder pass, and as many passes end at rest. -/
theorem candidateCount_bounds_redistribute
    (limit : Nat) :
    (redistribute limit ledger).2.passes ≤ ledger.candidateCount ∧
      (ledger.candidateCount ≤ limit →
        (redistribute limit ledger).1.AtRest) := by
  refine
    sound.remainder_induction
      (motive := fun limit before result =>
        result.2.passes ≤ before.candidateCount ∧
          (before.candidateCount ≤ limit → result.1.AtRest))
      ?_ ?_ ?_ limit
  · intro _ resting stop _ rests
    refine ⟨Nat.zero_le _, fun _ => ?_⟩
    by_contra active
    rw [atRest?_eq_none_iff.mpr active] at rests
    cases rests
  · intro active activeSound notAtRest
    have someone := candidateCount_pos activeSound notAtRest
    exact ⟨Nat.zero_le _, fun enough => by omega⟩
  · rintro left active activeSound notAtRest - ⟨atMost, rests⟩
    simp only [RemainderReport.after]
    rcases atRest_or_candidateCount_runPass_lt activeSound notAtRest
      with resting | fewer
    · have someone := candidateCount_pos activeSound notAtRest
      obtain ⟨stop, unchanged⟩ := resting.exists_redistribute_eq left
      rw [unchanged]
      exact ⟨someone, fun _ => resting⟩
    · exact ⟨by omega, fun enough => rests (by omega)⟩

end Redistribute

section AtRest

variable
    (resting : ledger.AtRest)
    (sound : ledger.Sound)

include resting sound

/-- At rest, no offer pays anybody out of what is left or less. -/
theorem AtRest.amount_grant_eq_zero
    {account : Account}
    (member : account ∈ ledger.accounts)
    {pool : Int}
    (atMost : pool ≤ ledger.pool)
    (offer : Offer) :
    (account.grant ledger.minimum pool offer).amount = 0 := by
  have accountSound := sound.accounts_sound account member
  have room := accountSound.room_eq
  have paid := account.amount_grant_nonneg ledger.minimum pool offer
  have withinRoom :=
    account.amount_grant_le_room ledger.minimum pool offer
  rcases Int.lt_or_eq_of_le sound.pool_nonneg with hasPool | empty
  · rcases sound.full_or_belowMinimum_of_atRest resting hasPool member
      with full | ⟨unpaid, tooSmall⟩
    · omega
    · refine
        accountSound.amount_grant_eq_zero_of_not_open unpaid ?_
          hasPool atMost offer
      rw [← Bool.not_eq_true, accountSound.isOpen_iff]
      rintro ⟨-, -, meetsMinimum⟩
      have atLeast := meetsMinimum unpaid
      omega
  · cases given : account.grant ledger.minimum pool offer with
    | closed => rfl
    | belowMinimum => rfl
    | paid amount =>
        have bounds := Account.paid_bounds given
        omega

/-- A pass leaves a ledger at rest as it was, at rest. -/
theorem AtRest.pass
    {after : Ledger}
    (pass : ledger.PassesTo after) :
    after.AtRest := by
  have afterSound := pass.sound sound
  obtain ⟨offers, suits, same⟩ := pass.exists_offers sound
  subst same
  have bounds := pool_runOffers_bounds sound offers
  rw [← not_not (a := AtRest _), afterSound.not_atRest_iff]
  rintro ⟨hasPool, someone⟩
  obtain ⟨account, member, opens⟩ := List.any_eq_true.mp someone
  obtain ⟨earlier, offer, inLedger, -, pool, atMost, -, isTurn⟩ :=
    exists_turn_of_mem sound suits member
  have accountSound := afterSound.accounts_sound account member
  have earlierSound := sound.accounts_sound earlier inLedger
  have nothing :=
    resting.amount_grant_eq_zero sound inLedger atMost offer
  have sameGranted : account.granted = earlier.granted := by
    rw [isTurn, Account.granted_turn, nothing, Int.add_zero]
  have sameCap : account.cap = earlier.cap := by
    rw [isTurn, Account.cap_turn]
  have room := accountSound.room_eq
  have earlierRoom := earlierSound.room_eq
  obtain ⟨belowCap, -, meetsMinimum⟩ :=
    accountSound.isOpen_iff.mp opens
  rw [minimum_runOffers] at meetsMinimum
  have earlierOpens : ledger.opens earlier = true := by
    refine earlierSound.isOpen_iff.mpr ⟨by omega, by omega, ?_⟩
    intro unpaid
    have atLeast := meetsMinimum (by omega)
    omega
  exact
    sound.not_atRest_iff.mpr
      ⟨by omega, List.any_eq_true.mpr ⟨earlier, inLedger, earlierOpens⟩⟩
      resting

end AtRest

/-- After a first pass, a remainder pass for every candidate but one is enough. -/
theorem atRest_redistribute_runPass
    (sound : ledger.Sound)
    {limit : Nat}
    (enough : ledger.candidateCount ≤ 1 + limit) :
    (redistribute limit ledger.runPass.1).1.AtRest := by
  have firstSound : ledger.runPass.1.Sound :=
    PassesTo.shared.sound sound
  have stays :
      ledger.runPass.1.AtRest →
        (redistribute limit ledger.runPass.1).1.AtRest := by
    intro resting
    obtain ⟨stop, unchanged⟩ := resting.exists_redistribute_eq limit
    rw [unchanged]
    exact resting
  by_cases resting : ledger.AtRest
  · exact stays (resting.pass sound .shared)
  · rcases atRest_or_candidateCount_runPass_lt sound resting with
      resting | fewer
    · exact stays resting
    · exact
        (candidateCount_bounds_redistribute firstSound limit).2
          (by omega)

end Ledger

end FollowOn

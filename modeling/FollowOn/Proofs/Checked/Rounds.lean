import FollowOn.Proofs.Checked.Account
import FollowOn.Proofs.Checked.Proportion

namespace FollowOn

/-!
# Checked rounds of a weighted pass

A weighted pass goes through rounds. Each adds up the weights of the admitted
accounts, computes a limit for each place, and looks for the last place whose
account would miss the minimum; that account drops out and a further round
follows. Every round but the last drops an admitted account, so there are at
most as many as there are accounts, and one more. The sum of the weights only
shrinks on the way.
-/

namespace Stake

/-- An account that has dropped out. -/
def retire (stake : Stake) : Stake :=
  { stake with standing := .retired }

/-- Retiring a stake leaves its account alone. -/
@[simp] theorem account_retire
    (stake : Stake) :
    stake.retire.account = stake.account := rfl

/-- Retiring a stake leaves its weight alone. -/
@[simp] theorem weight_retire
    (stake : Stake) :
    stake.retire.weight = stake.weight := rfl

/-- What an account is limited to, when the admitted weights sum up to `total`. -/
def limit
    (pool : Int)
    (total : Nat)
    (stake : Stake) :
    Int :=
  if stake.isAdmitted = false ∨ total = 0 then
    0
  else
    proportionalShare pool.toNat stake.weight total

/-- But for the mark of being held back, a stake is offered its limit. -/
theorem withoutMark_offer
    (pool : Int)
    (total : Nat)
    (stake : Stake) :
    (stake.offer pool total).withoutMark =
      .upTo (stake.limit pool total) := by
  unfold offer limit isAdmitted
  cases stake.standing with
  | outside => rfl
  | retired => rfl
  | admitted =>
      by_cases nothing : total = 0 <;>
        simp [nothing, Offer.withoutMark]

/-- Only an admitted stake can be blocked by the minimum. -/
theorem isAdmitted_of_isBlocked
    {minimum pool : Int}
    {total : Nat}
    {stake : Stake}
    (blocked : stake.isBlocked minimum pool total = true) :
    stake.isAdmitted = true := by
  rw [isBlocked, Bool.and_eq_true] at blocked
  exact blocked.1

/-- Exactly the retired stakes are held back. -/
theorem offer_eq_heldBack_iff
    {pool : Int}
    {total : Nat}
    {stake : Stake} :
    stake.offer pool total = .heldBack ↔
      stake.standing = .retired := by
  unfold offer
  cases stake.standing with
  | outside => simp
  | retired => simp
  | admitted =>
      simp only [reduceCtorEq, iff_false]
      split <;> simp

end Stake

namespace Checked

/-- What an account is limited to in a round. -/
def stakeLimit
    (pool total : Nat)
    (stake : Stake) :
    Option Int :=
  if stake.isAdmitted = false ∨ total = 0 then
    some 0
  else do
    let share ← proportion pool stake.weight total
    amount? (min share Amount.greatest)

/-- The limits of a round, by place. -/
def roundLimits
    (pool : Int)
    (stakes : List Stake) :
    Option (List Int) := do
  let capital ← unsigned? pool
  let total ←
    sum? (word? 128)
      ((stakes.filter Stake.isAdmitted).map Stake.weight)
  stakes.mapM (stakeLimit capital total)

/-- Whether the admitted account at a place would miss the minimum. -/
def blockedAt
    (minimum pool : Int)
    (limits : List Int)
    (stakes : List Stake)
    (place : Nat) :
    Option Bool := do
  let stake ← stakes[place]?
  if stake.isAdmitted then
    let limit ← limits[place]?
    let grant ← grant minimum pool (.upTo limit) stake.account
    some (decide (grant = .belowMinimum))
  else
    some false

/--
Rounds until no account drops out, at most `left` of them: the last limits, and
the places that dropped out.
-/
def rounds
    (minimum pool : Int) :
    (left : Nat) →
    (heldBack : List Nat) →
    List Stake →
    Option (List Int × List Nat)
  | 0, _, _ => none
  | left + 1, heldBack, stakes => do
      let limits ← roundLimits pool stakes
      let last ←
        (List.range stakes.length).reverse.findM?
          (blockedAt minimum pool limits stakes)
      match last with
      | none => some (limits, heldBack)
      | some place => do
          let fewer ← update? Stake.retire stakes place
          rounds minimum pool left (heldBack ++ [place]) fewer

/-- The last place of a blocked stake. -/
def lastPlace?
    (blocked : Stake → Bool)
    (stakes : List Stake) :
    Option Nat :=
  (List.range stakes.length).reverse.find? fun place =>
    stakes[place]?.any blocked

section LastPlace

variable
    {blocked : Stake → Bool}
    {stakes : List Stake}

/-- The last blocked stake is sought in the rest first. -/
theorem lastPlace?_cons
    (blocked : Stake → Bool)
    (stake : Stake)
    (rest : List Stake) :
    lastPlace? blocked (stake :: rest) =
      match lastPlace? blocked rest with
      | some place => some (place + 1)
      | none => if blocked stake then some 0 else none := by
  have inRest :
      ((List.range rest.length).map Nat.succ).reverse.find?
          (fun place => (stake :: rest)[place]?.any blocked) =
        (lastPlace? blocked rest).map Nat.succ := by
    rw [← List.map_reverse, List.find?_map]
    rfl
  rw [lastPlace?, List.length_cons, List.range_succ_eq_map,
    List.reverse_cons, List.find?_append, inRest]
  cases lastPlace? blocked rest with
  | some place => rfl
  | none =>
      simp only [Option.map_none, Option.none_or,
        List.find?_singleton]
      rfl

/-- The last blocked account drops out at its place. -/
theorem retireLast?_eq
    (blocked : Stake → Bool)
    (stakes : List Stake) :
    retireLast? blocked stakes =
      (lastPlace? blocked stakes).map fun place =>
        stakes.modify place Stake.retire := by
  induction stakes with
  | nil =>
      rfl
  | cons stake rest inductionHypothesis =>
      rw [lastPlace?_cons, retireLast?, inductionHypothesis]
      cases lastPlace? blocked rest with
      | some place => rfl
      | none =>
          simp only [Option.map_none]
          split <;> rfl

/-- At the last place that is found there is a blocked stake. -/
theorem exists_blocked_of_lastPlace?
    {place : Nat}
    (last : lastPlace? blocked stakes = some place) :
    ∃ stake, stakes[place]? = some stake ∧ blocked stake = true := by
  have isBlocked := List.find?_some last
  cases found : stakes[place]? with
  | none => simp [found] at isBlocked
  | some stake => exact ⟨stake, rfl, by simpa [found] using isBlocked⟩

end LastPlace

section Retire

variable
    {stakes : List Stake}
    {place : Nat}
    {stake : Stake}

/-- One admitted account fewer is left when one drops out. -/
theorem countP_modify_retire
    (found : stakes[place]? = some stake)
    (isAdmitted : stake.isAdmitted = true) :
    (stakes.modify place Stake.retire).countP Stake.isAdmitted + 1 =
      stakes.countP Stake.isAdmitted := by
  induction stakes generalizing place with
  | nil =>
      cases found
  | cons first rest inductionHypothesis =>
      cases place with
      | zero =>
          injection found with same
          subst same
          have dropped : first.retire.isAdmitted = false := rfl
          simp [isAdmitted, dropped]
      | succ place =>
          have fewer := inductionHypothesis found
          simp only [List.modify_succ_cons, List.countP_cons]
          omega

/-- The places at which an account has dropped out. -/
def HasRetired
    (stakes : List Stake)
    (place : Nat) : Prop :=
  ∃ stake, stakes[place]? = some stake ∧ stake.standing = .retired

/-- Retiring one more stake adds its place to those retired. -/
theorem hasRetired_modify_iff
    (found : stakes[place]? = some stake)
    {other : Nat} :
    HasRetired (stakes.modify place Stake.retire) other ↔
      HasRetired stakes other ∨ other = place := by
  simp only [HasRetired, List.getElem?_modify]
  by_cases same : place = other
  · subst same
    simp [found, Stake.retire]
  · simp [same, Ne.symm same]

end Retire

section Rounds

/-- The accounts and weights of stakes that a round can compute with. -/
structure AreStored (stakes : List Stake) : Prop where
  accounts_stored : ∀ stake ∈ stakes, stake.account.IsStored
  sum_lt : (stakes.map Stake.weight).sum < 2 ^ 128

/-- Stakes stay stored when one of them retires. -/
theorem AreStored.retire
    {stakes : List Stake}
    (stored : AreStored stakes)
    (place : Nat) :
    AreStored (stakes.modify place Stake.retire) where
  accounts_stored := by
    intro stake member
    have inAccounts :
        stake.account ∈ stakes.map Stake.account := by
      rw [← map_modify_of_unchanged Stake.account_retire stakes place]
      exact List.mem_map_of_mem member
    obtain ⟨earlier, inStakes, same⟩ := List.mem_map.mp inAccounts
    rw [← same]
    exact stored.accounts_stored earlier inStakes
  sum_lt := by
    rw [map_modify_of_unchanged Stake.weight_retire]
    exact stored.sum_lt

variable
    {pool : Int}
    (poolNotNegative : 0 ≤ pool)
    (poolAtMost : pool ≤ Amount.greatest)
    {stakes : List Stake}
    (stored : AreStored stakes)

/-- The admitted weight is part of the whole weight. -/
theorem admittedWeight_le
    (stakes : List Stake) :
    admittedWeight stakes ≤ (stakes.map Stake.weight).sum :=
  (List.filter_sublist.map Stake.weight).sum_le_sum
    fun weight _ => Nat.zero_le weight

/-- The admitted weight of stored stakes fits in 128 bits. -/
theorem AreStored.admittedWeight_lt
    {stakes : List Stake}
    (stored : AreStored stakes) :
    admittedWeight stakes < 2 ^ 128 :=
  Nat.lt_of_le_of_lt (admittedWeight_le stakes) stored.sum_lt

/-- An admitted stake weighs no more than all admitted ones together. -/
theorem weight_le_admittedWeight
    {stake : Stake}
    (member : stake ∈ stakes)
    (isAdmitted : stake.isAdmitted = true) :
    stake.weight ≤ admittedWeight stakes :=
  List.single_le_sum (fun weight _ => Nat.zero_le weight) _
    (List.mem_map_of_mem (List.mem_filter.mpr ⟨member, isAdmitted⟩))

include poolNotNegative poolAtMost stored

/-- The proportional limit of a stored stake is computed within its words. -/
theorem stakeLimit_eq
    {stake : Stake}
    (member : stake ∈ stakes) :
    stakeLimit pool.toNat (admittedWeight stakes) stake =
      some (stake.limit pool (admittedWeight stakes)) := by
  unfold stakeLimit Stake.limit
  split
  · rfl
  · rename_i takesPart
    simp only [not_or, Bool.not_eq_false] at takesPart
    obtain ⟨isAdmitted, notZero⟩ := takesPart
    have withinTotal := weight_le_admittedWeight member isAdmitted
    have smallPool : pool.toNat < 2 ^ 63 := by
      simp only [Amount.greatest] at poolAtMost
      omega
    have withinPool :
        proportionalShare pool.toNat stake.weight
            (admittedWeight stakes) ≤
          pool.toNat :=
      proportionalShare_le withinTotal
    have isAmount :
        (proportionalShare pool.toNat stake.weight
          (admittedWeight stakes) : Int) ≤ Amount.greatest := by
      omega
    rw [proportion_eq smallPool
        (Nat.lt_of_le_of_lt withinTotal stored.admittedWeight_lt)
        (Nat.pos_of_ne_zero notZero),
      Option.bind_eq_bind, Option.bind_some,
      Int.min_eq_left isAmount]
    exact amount?_of_bounds (Int.natCast_nonneg _) isAmount

/-- The limits of a round are computed within their words. -/
theorem roundLimits_eq :
    roundLimits pool stakes =
      some
        (stakes.map (Stake.limit pool (admittedWeight stakes))) := by
  have total := stored.admittedWeight_lt
  have sum :
      sum? (word? 128)
          ((stakes.filter Stake.isAdmitted).map Stake.weight) =
        some (admittedWeight stakes) :=
    sum?_eq_some_sum
      (fun _ _ atMost => word?_of_lt (Nat.lt_of_le_of_lt atMost total))
      (fun weight _ => Nat.zero_le weight) (Nat.le_refl _)
  rw [roundLimits, unsigned?_of_nonneg poolNotNegative,
    Option.bind_eq_bind, Option.bind_some, sum, Option.bind_some]
  exact
    mapM_eq_some_map fun _ member =>
      stakeLimit_eq poolNotNegative poolAtMost stored member

omit poolNotNegative poolAtMost in
/-- Whether the stake at a place is blocked is decided within its words. -/
theorem blockedAt_eq
    (minimum : Int)
    (total : Nat)
    {place : Nat}
    (inside : place < stakes.length) :
    blockedAt minimum pool
        (stakes.map (Stake.limit pool total)) stakes place =
      some
        (stakes[place]?.any
          (Stake.isBlocked minimum pool total)) := by
  have found := List.getElem?_eq_getElem inside
  have accountStored :=
    stored.accounts_stored _ (List.getElem_mem inside)
  have offered :
      stakes[place].account.grant minimum pool
          (.upTo (stakes[place].limit pool total)) =
        stakes[place].account.grant minimum pool
          (stakes[place].offer pool total) := by
    rw [← Stake.withoutMark_offer]
    exact grant_withoutMark ..
  simp only [blockedAt, List.getElem?_map, found, Option.map_some,
    Option.bind_eq_bind, Option.bind_some, grant_eq accountStored,
    offered, Option.any_some, Stake.isBlocked]
  cases stakes[place].isAdmitted <;> rfl

omit poolNotNegative poolAtMost in
/-- The search through the places from behind finds the last blocked stake. -/
theorem findM?_blockedAt
    (minimum : Int)
    (total : Nat) :
    (List.range stakes.length).reverse.findM?
        (blockedAt minimum pool
          (stakes.map (Stake.limit pool total)) stakes) =
      some
        (lastPlace? (Stake.isBlocked minimum pool total) stakes) := by
  apply findM?_eq_some_find?
  intro place member
  exact
    blockedAt_eq stored minimum total
      (List.mem_range.mp (List.mem_reverse.mp member))

/-- A round either is the last one or drops the last blocked account. -/
theorem rounds_succ
    (minimum : Int)
    (left : Nat)
    (heldBack : List Nat) :
    rounds minimum pool (left + 1) heldBack stakes =
      match
        lastPlace?
          (Stake.isBlocked minimum pool (admittedWeight stakes))
          stakes
      with
      | none =>
          some
            (stakes.map (Stake.limit pool (admittedWeight stakes)),
              heldBack)
      | some place =>
          rounds minimum pool left (heldBack ++ [place])
            (stakes.modify place Stake.retire) := by
  rw [rounds, roundLimits_eq poolNotNegative poolAtMost stored,
    Option.bind_eq_bind, Option.bind_some,
    findM?_blockedAt stored, Option.bind_eq_bind, Option.bind_some]
  cases found :
      lastPlace?
        (Stake.isBlocked minimum pool (admittedWeight stakes))
        stakes with
  | none =>
      rfl
  | some place =>
      obtain ⟨stake, atPlace, -⟩ := exists_blocked_of_lastPlace? found
      have inside := (List.getElem?_eq_some_iff.mp atPlace).1
      simp only [update?_of_lt inside, Option.bind_eq_bind,
        Option.bind_some]

/--
The rounds end with the stakes of which no admitted one is blocked, if there
is a round for each admitted account and one more.
-/
theorem rounds_eq
    (minimum : Int)
    {drops : Nat}
    (enough : stakes.countP Stake.isAdmitted ≤ drops)
    {heldBack : List Nat}
    (retired : ∀ place, place ∈ heldBack ↔ HasRetired stakes place) :
    ∃ places,
      rounds minimum pool (drops + 1) heldBack stakes =
          some
            ((dropBlocked minimum pool drops stakes).map
              (Stake.limit pool
                (admittedWeight
                  (dropBlocked minimum pool drops stakes))),
              places) ∧
        ∀ place,
          place ∈ places ↔
            HasRetired (dropBlocked minimum pool drops stakes)
              place := by
  induction drops generalizing stakes heldBack with
  | zero =>
      refine ⟨heldBack, ?_, retired⟩
      rw [rounds_succ poolNotNegative poolAtMost stored]
      cases found :
          lastPlace?
            (Stake.isBlocked minimum pool (admittedWeight stakes))
            stakes with
      | none =>
          rfl
      | some place =>
          obtain ⟨stake, atPlace, blocked⟩ :=
            exists_blocked_of_lastPlace? found
          have fewer :=
            countP_modify_retire atPlace
              (Stake.isAdmitted_of_isBlocked blocked)
          omega
  | succ drops inductionHypothesis =>
      rw [rounds_succ poolNotNegative poolAtMost stored, dropBlocked,
        retireLast?_eq]
      cases found :
          lastPlace?
            (Stake.isBlocked minimum pool (admittedWeight stakes))
            stakes with
      | none =>
          exact ⟨heldBack, rfl, retired⟩
      | some place =>
          obtain ⟨stake, atPlace, blocked⟩ :=
            exists_blocked_of_lastPlace? found
          have fewer :=
            countP_modify_retire atPlace
              (Stake.isAdmitted_of_isBlocked blocked)
          refine
            inductionHypothesis (stored.retire place) (by omega) ?_
          intro other
          rw [List.mem_append, List.mem_singleton, retired other,
            hasRetired_modify_iff atPlace]

end Rounds

end Checked

end FollowOn

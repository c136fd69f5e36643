import FollowOn.Proofs.Checked.Pass
import FollowOn.Proofs.Ledger.Evenness

namespace FollowOn

/-!
# Checked even shares

A pass by even shares works on places: those of the open accounts, of the
accounts among them that were paid before, and of those that wait. The waiting
ones beyond the admitted ones are held back, and the limits are written by
place. The share is a quotient and one more unless the division leaves nothing,
which never adds the number of accounts to the pool.
-/

namespace Checked

/-- A pool divided evenly, rounded up; nothing for nobody. -/
def share
    (pool : Int)
    (count : Nat) :
    Option Int := do
  let divisor ← amount? count
  if divisor = 0 then
    some 0
  else do
    let quotient ← amountQuotient? pool divisor
    let remainder ← amountRemainder? pool divisor
    amount? (quotient + if remainder = 0 then 0 else 1)

/-- The share when some waiting accounts are admitted beside funded ones. -/
def shareAmong
    (pool : Int)
    (funded admitted : Nat) :
    Option Int := do
  let count ← word? 64 (funded + admitted)
  share pool count

/-- How many waiting accounts are admitted beside `funded` ones, and the share. -/
def admissionsAndShare
    (pool minimum : Int)
    (funded : Nat) :
    (waiting : Nat) →
    Option (Nat × Int)
  | 0 => do
      let share ← shareAmong pool funded 0
      some (0, share)
  | waiting + 1 => do
      let share ← shareAmong pool funded (waiting + 1)
      if share < minimum then
        admissionsAndShare pool minimum funded waiting
      else
        some (waiting + 1, share)

/-- The places among some at which an account passes a test. -/
def placesAmong
    (places : List Nat)
    (test : Account → Option Bool)
    (accounts : List Account) :
    Option (List Nat) :=
  select?
    (fun place => do
      let account ← accounts[place]?
      test account)
    places

/-- The limits of a pass by even shares, and the places that it holds back. -/
def evenLimits
    (ledger : Ledger) :
    Option (List Offer × List Nat) := do
  let all := List.range ledger.accounts.length
  let opened ← placesAmong all (opens ledger) ledger.accounts
  let funded ←
    placesAmong opened
      (fun account => some (decide (0 < account.granted)))
      ledger.accounts
  let waiting ←
    placesAmong opened
      (fun account => some (account.granted == 0))
      ledger.accounts
  let (admitted, share) ←
    admissionsAndShare ledger.pool ledger.minimum
      funded.length waiting.length
  let heldBack ← from? waiting admitted
  let limits ←
    heldBack.foldlM (update? fun _ => .upTo 0)
      (List.replicate ledger.accounts.length (.upTo share))
  some (limits, heldBack)

/-- One pass by the ledger's rule of sharing. -/
def runPass
    (ledger : Ledger) :
    Option (Ledger × PassReport) :=
  match ledger.sharing with
  | .greedy =>
      runLimits []
        (List.replicate ledger.accounts.length .unlimited) ledger
  | .evenShare => do
      let (limits, heldBack) ← evenLimits ledger
      runLimits heldBack limits ledger

end Checked

section Share

/-- An even share is a quotient, and one more unless the division leaves nothing. -/
theorem evenShare_eq_quotient
    (pool : Int)
    {count : Nat}
    (someone : 0 < count) :
    evenShare pool count =
      pool / count + if pool % count = 0 then 0 else 1 := by
  have positive : (0 : Int) < count := by
    exact_mod_cast someone
  have parts : pool = pool % count + count * (pool / count) :=
    (Int.emod_add_mul_ediv pool count).symm
  have least := Int.emod_nonneg pool (Int.ne_of_gt positive)
  have most := Int.emod_lt_of_pos pool positive
  have apart :
      pool + (count - 1) =
        (pool % count + (count - 1)) + count * (pool / count) := by
    omega
  rw [evenShare, if_neg (Nat.ne_of_gt someone), apart,
    Int.add_mul_ediv_left _ _ (Int.ne_of_gt positive), Int.add_comm]
  congr 1
  split
  · rename_i nothing
    rw [nothing]
    exact Int.ediv_eq_zero_of_lt (by omega) (by omega)
  · rename_i something
    have carry :
        pool % count + (count - 1) =
          (pool % count - 1) + count * 1 := by
      omega
    rw [carry, Int.add_mul_ediv_left _ _ (Int.ne_of_gt positive),
      Int.ediv_eq_zero_of_lt (by omega) (by omega)]
    rfl

/-- An even share does not exceed the pool. -/
theorem evenShare_le
    {pool : Int}
    (notNegative : 0 ≤ pool)
    (count : Nat) :
    evenShare pool count ≤ pool := by
  rcases Nat.eq_zero_or_pos count with nobody | someone
  · rw [nobody]
    exact notNegative
  · apply Int.le_of_lt_add_one
    apply Int.not_le.mp
    intro larger
    have reached := (le_evenShare_iff someone).mp larger
    have atLeastOne : (1 : Int) ≤ count := by
      exact_mod_cast someone
    have atLeast : pool * 1 ≤ pool * count :=
      Int.mul_le_mul_of_nonneg_left atLeastOne notNegative
    rw [Int.add_sub_cancel] at reached
    omega

end Share

namespace Checked

section Admit

variable
    {pool : Int}
    (notNegative : 0 ≤ pool)
    (atMost : pool ≤ Amount.greatest)

include notNegative atMost

/-- The quotient rounded up is computed within its words, also for no account. -/
theorem share_eq
    {count : Nat}
    (few : count < 2 ^ 63) :
    share pool count = some (evenShare pool count) := by
  have countAtMost : (count : Int) ≤ Amount.greatest := by
    simp only [Amount.greatest]
    omega
  have countFits : amount? (count : Int) = some (count : Int) :=
    amount?_of_bounds (Int.natCast_nonneg count) countAtMost
  rw [share, countFits, Option.bind_eq_bind, Option.bind_some]
  rcases Nat.eq_zero_or_pos count with nobody | someone
  · subst nobody
    rfl
  · have positive : (0 : Int) < count := by
      exact_mod_cast someone
    have bounded := evenShare_le notNegative count
    have shareNotNegative := evenShare_nonneg notNegative count
    have shareFits :
        amount? (evenShare pool count) =
          some (evenShare pool count) :=
      amount?_of_bounds shareNotNegative (Int.le_trans bounded atMost)
    rw [if_neg (Int.ne_of_gt positive),
      amountQuotient?_of_pos notNegative atMost positive,
      amountRemainder?_of_pos notNegative atMost positive,
      Option.bind_some, Option.bind_some,
      ← evenShare_eq_quotient pool someone, shareFits]

/-- Funded and admitted accounts are counted within a word before they share. -/
theorem shareAmong_eq
    {funded admitted : Nat}
    (few : funded + admitted < 2 ^ 63) :
    shareAmong pool funded admitted =
      some (evenShare pool (funded + admitted)) := by
  have counted : word? 64 (funded + admitted) = some (funded + admitted) :=
    word?_of_lt (Nat.lt_trans few (by decide))
  rw [shareAmong, counted, Option.bind_eq_bind, Option.bind_some,
    share_eq notNegative atMost few]

/-- The search from above ends with the greatest number of admissions and its share. -/
theorem admissionsAndShare_eq
    (minimum : Int)
    {funded waiting : Nat}
    (few : funded + waiting < 2 ^ 63) :
    admissionsAndShare pool minimum funded waiting =
      some
        (admissions pool minimum funded waiting,
          evenShare pool
            (funded + admissions pool minimum funded waiting)) := by
  induction waiting with
  | zero =>
      rw [admissionsAndShare, shareAmong_eq notNegative atMost few]
      rfl
  | succ waiting inductionHypothesis =>
      have fewer := inductionHypothesis (by omega)
      rw [admissionsAndShare, shareAmong_eq notNegative atMost few,
        Option.bind_eq_bind, Option.bind_some, admissions,
        Nat.add_assoc]
      split
      · exact fewer
      · rfl

end Admit

section Places

variable
    {accounts : List Account}
    {test : Account → Option Bool}
    {answer : Account → Bool}

/-- The places at which an account passes a test. -/
def placesOf
    (answer : Account → Bool)
    (accounts : List Account) :
    List Nat :=
  (List.range accounts.length).filter fun place =>
    accounts[place]?.any answer

/-- A second selection of places keeps those whose account passes the test. -/
theorem placesAmong_eq
    (tests :
      ∀ account ∈ accounts, test account = some (answer account))
    {places : List Nat}
    (inside : ∀ place ∈ places, place < accounts.length) :
    placesAmong places test accounts =
      some
        (places.filter fun place =>
          accounts[place]?.any answer) := by
  apply select?_eq_some_filter
  intro place member
  have found := List.getElem?_eq_getElem (inside place member)
  rw [found, Option.bind_eq_bind, Option.bind_some,
    tests _ (List.getElem_mem _)]
  rfl

/-- Places that were collected lie within the list of accounts. -/
theorem lt_length_of_mem_placesOf
    {place : Nat}
    (member : place ∈ placesOf answer accounts) :
    place < accounts.length :=
  List.mem_range.mp (List.mem_of_mem_filter member)

/-- Two selections of places in a row are one by both tests. -/
theorem filter_placesOf
    (first second : Account → Bool)
    (accounts : List Account) :
    ((placesOf first accounts).filter fun place =>
        accounts[place]?.any second) =
      placesOf (fun account => first account && second account)
        accounts := by
  rw [placesOf, List.filter_filter]
  apply List.filter_congr
  intro place member
  cases accounts[place]? with
  | none => rfl
  | some account => exact Bool.and_comm _ _

/-- The places of a longer list are those of its rest, moved on by one. -/
theorem placesOf_cons
    (answer : Account → Bool)
    (account : Account)
    (rest : List Account) :
    placesOf answer (account :: rest) =
      if answer account then
        0 :: (placesOf answer rest).map Nat.succ
      else
        (placesOf answer rest).map Nat.succ := by
  rw [placesOf, List.length_cons, List.range_succ_eq_map,
    List.filter_cons, List.filter_map]
  rfl

/-- There are as many places as accounts that pass the test. -/
theorem length_placesOf
    (answer : Account → Bool)
    (accounts : List Account) :
    (placesOf answer accounts).length =
      accounts.countP answer := by
  induction accounts with
  | nil =>
      rfl
  | cons account rest inductionHypothesis =>
      rw [placesOf_cons, List.countP_cons]
      split <;> simp [*]

/-- A share is offered to everybody but the waiting accounts beyond some places. -/
theorem offerShare_eq_mapIdx
    (waits : Account → Bool)
    (share : Int)
    (admitted : Nat)
    (accounts : List Account) :
    offerShare waits share admitted accounts =
      accounts.mapIdx fun place account =>
        (account,
          if place ∈ (placesOf waits accounts).drop admitted then
            .heldBack
          else
            .upTo share) := by
  induction accounts generalizing admitted with
  | nil =>
      rfl
  | cons account rest inductionHypothesis =>
      rw [List.mapIdx_cons, placesOf_cons]
      simp only [offerShare]
      split
      · cases admitted with
        | zero =>
            simp [inductionHypothesis]
        | succ left =>
            simp [inductionHypothesis, ← List.map_drop]
      · simp [inductionHypothesis, ← List.map_drop]

end Places

/-- The places that a pass by even shares holds back. -/
def placesHeldBack (ledger : Ledger) : List Nat :=
  (placesOf ledger.waits ledger.accounts).drop ledger.admitted

/-- The limits of a pass by even shares, by place. -/
def limitsBeside
    (heldBack : List Nat)
    (ledger : Ledger) :
    List Offer :=
  ledger.accounts.mapIdx fun place _ =>
    if place ∈ heldBack then .upTo 0 else .upTo ledger.share

section RunPass

variable
    {ledger : Ledger}

/-- Places that are held back lie within the list of accounts. -/
theorem lt_length_of_mem_placesHeldBack
    {place : Nat}
    (member : place ∈ placesHeldBack ledger) :
    place < ledger.accounts.length :=
  lt_length_of_mem_placesOf (List.mem_of_mem_drop member)

/-- Setting the limits at the held-back places one by one gives the list of limits. -/
theorem foldlM_limits
    {heldBack : List Nat}
    (inside : ∀ place ∈ heldBack, place < ledger.accounts.length) :
    heldBack.foldlM (update? fun _ => Offer.upTo 0)
        (List.replicate ledger.accounts.length
          (.upTo ledger.share)) =
      some (limitsBeside heldBack ledger) := by
  refine (foldlM_update? ?_ ?_).trans ?_
  · exact fun _ => rfl
  · simpa using inside
  congr 1
  apply List.ext_getElem?
  intro place
  by_cases isPlace : place < ledger.accounts.length
  · simp [limitsBeside, isPlace]
  · simp [limitsBeside, isPlace]

variable
    (stored : ledger.IsStored)

include stored

/-- The admissions and the share of a stored ledger are computed within their words. -/
theorem admissionsAndShare_ledger_eq :
    admissionsAndShare ledger.pool ledger.minimum
        ledger.fundedCount ledger.waitingCount =
      some (ledger.admitted, ledger.share) := by
  refine admissionsAndShare_eq stored.pool_nonneg stored.pool_le _ ?_
  rw [Ledger.fundedCount_add_waitingCount stored.toSound]
  exact Nat.lt_of_le_of_lt List.countP_le_length stored.length_lt

/-- The limits of an even pass and the places held back are computed within their words. -/
theorem evenLimits_eq :
    evenLimits ledger =
      some
        (limitsBeside (placesHeldBack ledger) ledger,
          placesHeldBack ledger) := by
  have opened :
      placesAmong (List.range ledger.accounts.length)
          (opens ledger) ledger.accounts =
        some (placesOf ledger.opens ledger.accounts) :=
    placesAmong_eq (fun _ member => opens_eq stored member)
      fun _ member => List.mem_range.mp member
  have among :
      ∀ answer : Account → Bool,
        placesAmong (placesOf ledger.opens ledger.accounts)
            (fun account => some (answer account))
            ledger.accounts =
          some
            (placesOf
              (fun account => ledger.opens account && answer account)
              ledger.accounts) := by
    intro answer
    rw [← filter_placesOf]
    exact
      placesAmong_eq (fun _ _ => rfl)
        fun _ member => lt_length_of_mem_placesOf member
  have admitted :
      admissionsAndShare ledger.pool ledger.minimum
          (placesOf
            (fun account =>
              ledger.opens account && decide (0 < account.granted))
            ledger.accounts).length
          (placesOf ledger.waits ledger.accounts).length =
        some (ledger.admitted, ledger.share) := by
    rw [length_placesOf, length_placesOf]
    exact admissionsAndShare_ledger_eq stored
  have heldBack :
      from? (placesOf ledger.waits ledger.accounts)
          ledger.admitted =
        some (placesHeldBack ledger) := by
    apply from?_of_le
    rw [length_placesOf]
    exact admissions_le ..
  have waiting :
      (fun account =>
          ledger.opens account && account.granted == 0) =
        ledger.waits := rfl
  simp only [evenLimits, opened, among, waiting, admitted, heldBack,
    foldlM_limits fun _ => lt_length_of_mem_placesHeldBack,
    Option.bind_eq_bind, Option.bind_some]

/-- A pass by the rule of sharing leaves no word but that of the counter. -/
theorem runPass_eq :
    runPass ledger = ledger.runPass? := by
  have sameAccounts := Ledger.map_fst_offers ledger
  rw [runPass, Ledger.runPass?]
  split
  · rename_i greedy
    have offers :
        ledger.offers = ledger.accounts.map (·, .unlimited) := by
      rw [Ledger.offers, greedy]
    refine runLimits_eq stored sameAccounts ⟨?_, ?_⟩
    · simp [offers, Function.comp_def, Offer.withoutMark]
    · simp [offers]
  · rename_i evenly
    have offers :
        ledger.offers =
          ledger.accounts.mapIdx fun place account =>
            (account,
              if place ∈ placesHeldBack ledger then
                .heldBack
              else
                .upTo ledger.share) := by
      rw [Ledger.offers, evenly]
      exact offerShare_eq_mapIdx ..
    rw [evenLimits_eq stored, Option.bind_eq_bind, Option.bind_some]
    refine runLimits_eq stored sameAccounts ⟨?_, ?_⟩
    · apply List.ext_getElem?
      intro place
      simp only [limitsBeside, offers, List.getElem?_mapIdx,
        List.getElem?_map, Option.map_map]
      cases ledger.accounts[place]? with
      | none =>
          rfl
      | some account =>
          simp only [Option.map_some, Function.comp_apply]
          split <;> rfl
    · intro place
      simp only [offers, List.getElem?_mapIdx]
      constructor
      · intro member
        have inside := lt_length_of_mem_placesHeldBack member
        exact
          ⟨ledger.accounts[place], by simp [inside, member]⟩
      · rintro ⟨account, found⟩
        by_contra notHeldBack
        simp [notHeldBack] at found

end RunPass

end Checked

end FollowOn

import FollowOn.Proofs.Checked.EvenShare
import FollowOn.Proofs.Ledger.Course
import FollowOn.Proofs.Ledger.Rest
import Mathlib.Data.Nat.Find
import Mathlib.Data.Rat.Floor

namespace FollowOn

/-!
# Who is admitted to a pass by even shares

The accounts that wait for their first check are admitted from the front, and
the search for their number goes down from all of them. It stops at the greatest
number whose share meets the minimum. The more accounts divide the pool, the
less each of them gets, so every smaller number would do as well and every
greater one would not. While nobody was paid before, one account alone has the
whole pool, and that meets the minimum of every open account.
-/

section EvenShare

variable
    {pool : Int}

/-- An even share is the exact quotient, rounded up. -/
theorem evenShare_eq_ceil
    (pool : Int)
    (count : Nat) :
    evenShare pool count = ⌈(pool : ℚ) / count⌉ := by
  rcases Nat.eq_zero_or_pos count with nobody | someone
  · subst nobody
    simp [evenShare]
  · have positive : (0 : ℚ) < count := by
      exact_mod_cast someone
    apply eq_of_forall_le_iff
    intro amount
    rw [le_evenShare_iff someone, Int.le_ceil_iff,
      lt_div_iff₀ positive]
    norm_cast

/-- The more accounts divide a pool, the less each of them gets. -/
theorem evenShare_antitone
    (notNegative : 0 ≤ pool)
    {few many : Nat}
    (someone : 0 < few)
    (more : few ≤ many) :
    evenShare pool many ≤ evenShare pool few := by
  have leaves :
      (evenShare pool many - 1) * many < pool :=
    (le_evenShare_iff (Nat.lt_of_lt_of_le someone more)).mp
      (Int.le_refl _)
  rw [le_evenShare_iff someone]
  rcases Int.lt_or_eq_of_le (evenShare_nonneg notNegative many) with
    positive | nothing
  · have atMost :
        (evenShare pool many - 1) * few ≤
          (evenShare pool many - 1) * many :=
      Int.mul_le_mul_of_nonneg_left
        (by exact_mod_cast more) (by omega)
    omega
  · rw [← nothing]
    omega

end EvenShare

section Admissions

variable
    {pool minimum : Int}
    {funded waiting : Nat}

/-- The search from above ends at the greatest number whose share meets the minimum. -/
theorem admissions_eq_findGreatest
    (pool minimum : Int)
    (funded waiting : Nat) :
    admissions pool minimum funded waiting =
      Nat.findGreatest
        (fun number =>
          0 < funded + number ∧
            minimum ≤ evenShare pool (funded + number))
        waiting := by
  induction waiting with
  | zero =>
      rfl
  | succ waiting inductionHypothesis =>
      rw [admissions, Nat.findGreatest_succ, inductionHypothesis,
        Nat.add_assoc]
      by_cases enough :
          minimum ≤ evenShare pool (funded + (waiting + 1))
      · rw [if_neg (Int.not_lt.mpr enough),
          if_pos ⟨Nat.succ_pos _, enough⟩]
      · rw [if_pos (Int.not_le.mp enough),
          if_neg fun meets => enough meets.2]

/-- The share meets the minimum for exactly those numbers of accounts up to the admitted one. -/
theorem minimum_le_evenShare_iff
    (notNegative : 0 ≤ pool)
    {number : Nat}
    (someone : 0 < number)
    (amongWaiting : number ≤ waiting) :
    minimum ≤ evenShare pool (funded + number) ↔
      number ≤ admissions pool minimum funded waiting := by
  constructor
  · intro enough
    rw [admissions_eq_findGreatest]
    exact
      Nat.le_findGreatest amongWaiting
        ⟨Nat.add_pos_right funded someone, enough⟩
  · intro admits
    exact
      Int.le_trans
        (minimum_le_evenShare_of_admissions
          (Nat.lt_of_lt_of_le someone admits))
        (evenShare_antitone notNegative
          (Nat.add_pos_right funded someone)
          (Nat.add_le_add_left admits funded))

end Admissions

namespace Ledger

/-- Places, in ranking order, of the open accounts that wait for their first check. -/
def waitingPlaces (ledger : Ledger) : List Nat :=
  Checked.placesOf ledger.waits ledger.accounts

/-- The exact share, rounded up, if so many waiting accounts were admitted. -/
def shareAdmitting
    (ledger : Ledger)
    (number : Nat) :
    Int :=
  ⌈(ledger.pool : ℚ) / (ledger.fundedCount + number : Nat)⌉

/--
Whom a pass by even shares admits, whatever rule the passes before it went by,
and what it offers to everybody: the first of those who wait share the pool with
those who were paid before, and the rest of those who wait are held back.
-/
structure AdmitsFirst (ledger : Ledger) : Prop where
  /-- Without a minimum everybody is admitted. -/
  admitted_of_no_minimum :
    ledger.minimum = 0 →
      ledger.admitted = ledger.waitingPlaces.length
  /-- Under a minimum the greatest number is admitted whose share meets it, if any does. -/
  admitted_of_minimum :
    0 < ledger.minimum →
      ledger.admitted =
        Nat.findGreatest
          (fun number =>
            0 < ledger.fundedCount + number ∧
              ledger.minimum ≤ ledger.shareAdmitting number)
          ledger.waitingPlaces.length
  share_eq :
    ledger.share =
      if ledger.fundedCount + ledger.admitted = 0 then
        0
      else
        ledger.shareAdmitting ledger.admitted
  offers_eq :
    (ledger.withSharing .evenShare).offers =
      ledger.accounts.mapIdx fun place account =>
        (account,
          if place ∈ ledger.waitingPlaces.drop ledger.admitted then
            .heldBack
          else
            .upTo ledger.share)
  /-- Whoever is held back is limited to nothing, and everybody else to the share. -/
  limit_eq :
    ∀ offered ∈ (ledger.withSharing .evenShare).offers,
      ∀ amount,
        offered.2.limit amount =
          min amount (if offered.2.holdsBack then 0 else ledger.share)
  /-- If nobody was paid before, the pass does not leave out everybody. -/
  admits_someone :
    ledger.fundedCount = 0 →
      ledger.waitingPlaces ≠ [] →
        1 ≤ ledger.admitted
  /-- Nobody is admitted to less than the minimum. -/
  minimum_le_share :
    0 < ledger.admitted → ledger.minimum ≤ ledger.share
  /-- Fewer would also have a share that meets the minimum, and more would not. -/
  minimum_le_shareAdmitting_iff :
    ∀ number,
      0 < number →
        number ≤ ledger.waitingPlaces.length →
          (ledger.minimum ≤ ledger.shareAdmitting number ↔
            number ≤ ledger.admitted)

section AdmitsFirst

variable
    {ledger : Ledger}

/-- There are as many places of waiting accounts as such accounts. -/
theorem length_waitingPlaces
    (ledger : Ledger) :
    ledger.waitingPlaces.length = ledger.waitingCount :=
  Checked.length_placesOf ledger.waits ledger.accounts

/-- The share if some number of waiting accounts is admitted is an even share. -/
theorem shareAdmitting_eq
    (ledger : Ledger)
    (number : Nat) :
    ledger.shareAdmitting number =
      evenShare ledger.pool (ledger.fundedCount + number) :=
  (evenShare_eq_ceil ledger.pool _).symm

/-- The limit of an offer is the share, or nothing for those held back. -/
theorem limit_of_mem_offerShare
    {waits : Account → Bool}
    {share : Int}
    (notNegative : 0 ≤ share)
    {places : Nat}
    {accounts : List Account}
    {offered : Account × Offer}
    (member : offered ∈ offerShare waits share places accounts)
    (amount : Int) :
    offered.2.limit amount =
      min amount (if offered.2.holdsBack then 0 else share) := by
  obtain ⟨account, offer⟩ := offered
  rcases mem_offerShare member with shared | ⟨heldBack, -⟩
  · subst shared
    simp [Offer.limit, Offer.holdsBack, Int.max_eq_left notNegative]
  · subst heldBack
    rfl

/-- A sound ledger admits the longest part of those waiting that the minimum allows. -/
theorem Sound.admitsFirst
    (sound : ledger.Sound) :
    ledger.AdmitsFirst where
  admitted_of_no_minimum noMinimum := by
    rw [length_waitingPlaces]
    exact admitted_eq_waitingCount sound noMinimum
  admitted_of_minimum _ := by
    simp only [shareAdmitting_eq, length_waitingPlaces]
    exact admissions_eq_findGreatest ..
  share_eq := by
    rw [shareAdmitting_eq]
    split
    · rename_i nobody
      rw [share, nobody]
      rfl
    · rfl
  offers_eq := Checked.offerShare_eq_mapIdx ..
  limit_eq _ :=
    limit_of_mem_offerShare (evenShare_nonneg sound.pool_nonneg _)
  admits_someone nobodyPaid someone := by
    apply admitted_pos_of_waits sound nobodyPaid
    rw [← length_waitingPlaces]
    exact List.length_pos_iff.mpr someone
  minimum_le_share := minimum_le_evenShare_of_admissions
  minimum_le_shareAdmitting_iff := by
    intro number someone amongWaiting
    rw [length_waitingPlaces] at amongWaiting
    rw [shareAdmitting_eq]
    exact
      minimum_le_evenShare_iff sound.pool_nonneg someone amongWaiting

end AdmitsFirst

/-- Few enough accounts with caps and a pool that are amounts make a stored ledger. -/
theorem isStored_fresh
    {caps : List (String × Cap)}
    {pool : Int}
    (capsAtMost :
      ∀ entry ∈ caps, entry.2.amount ≤ Amount.greatest)
    (poolAtMost : pool ≤ Amount.greatest)
    (few : caps.length < 2 ^ 63) :
    (fresh caps pool).IsStored where
  toSound := sound_fresh caps pool
  capital_le := by
    rw [capital, allocatedTotal_fresh, Int.add_zero]
    exact Int.max_le.mpr ⟨by decide, poolAtMost⟩
  caps_le := by
    intro account member
    obtain ⟨⟨companyId, cap⟩, inCaps, same⟩ := List.mem_map.mp member
    rw [← same]
    exact Int.max_le.mpr ⟨by decide, capsAtMost _ inCaps⟩
  length_lt := by
    rw [fresh, opened, List.length_map]
    exact few

/--
Whatever was done before to a ledger of new accounts, a pass by even shares
admits the accounts that wait from the front: all of them without a minimum,
and otherwise the greatest number whose share meets it. The rest are held back
and limited to nothing, and everybody else to the share. Computed in words, the
limits and the places held back are these.
-/
theorem even_shares_admit_first
    (caps : List (String × Cap))
    (pool : Int)
    (commands : List LedgerCommand) :
    let ledger := (fresh caps pool).performAll commands
    ledger.AdmitsFirst ∧
      ((∀ entry ∈ caps, entry.2.amount ≤ Amount.greatest) →
        pool ≤ Amount.greatest →
        caps.length < 2 ^ 63 →
        ∃ limits heldBack,
          Checked.evenLimits ledger = some (limits, heldBack) ∧
            heldBack = ledger.waitingPlaces.drop ledger.admitted ∧
            limits =
              ledger.accounts.mapIdx fun place _ =>
                if place ∈ heldBack then
                  .upTo 0
                else
                  .upTo ledger.share) := by
  intro ledger
  have sound : ledger.Sound := (sound_fresh caps pool).performAll commands
  refine ⟨sound.admitsFirst, ?_⟩
  intro capsAtMost poolAtMost few
  have stored : ledger.IsStored :=
    (isStored_fresh capsAtMost poolAtMost few).performAll commands
  exact ⟨_, _, Checked.evenLimits_eq stored, rfl, rfl⟩

/--
Beside an account that was paid before, two wait for a first check of at least
three hundred out of eight hundred: one is admitted, since a share for three
would be 267, and the other is held back.
-/
theorem even_shares_admit_first_besideFunded :
    let caps : List (String × Cap) :=
      [("a", ⟨400, .stageMultiple, false, Ratio.one⟩),
        ("b", ⟨100, .explicitCap, false, Ratio.one⟩),
        ("c", ⟨1000, .stageMultiple, false, Ratio.one⟩),
        ("d", ⟨1000, .stageMultiple, false, Ratio.one⟩)]
    let ledger :=
      (fresh caps 1000).performAll
        [.weighted [1, 9], .setMinimum (some 300)]
    (∀ entry ∈ caps, entry.2.amount ≤ Amount.greatest) ∧
      1000 ≤ Amount.greatest ∧
      caps.length < 2 ^ 63 ∧
      ledger.AdmitsFirst ∧
      ledger.fundedCount = 1 ∧
      ledger.waitingPlaces = [2, 3] ∧
      ledger.admitted = 1 ∧
      Checked.evenLimits ledger =
        some ([.upTo 400, .upTo 400, .upTo 400, .upTo 0], [3]) := by
  intro caps ledger
  have capsAtMost :
      ∀ entry ∈ caps, entry.2.amount ≤ Amount.greatest := by
    decide
  obtain ⟨admits, inWords⟩ :=
    even_shares_admit_first caps 1000
      [.weighted [1, 9], .setMinimum (some 300)]
  obtain ⟨limits, heldBack, computed, isHeldBack, isLimits⟩ :=
    inWords capsAtMost (by decide) (by decide)
  refine
    ⟨capsAtMost, by decide, by decide, admits, by decide, by decide,
      by decide, ?_⟩
  have places : heldBack = [3] := by
    rw [isHeldBack]
    decide
  subst places
  rw [computed, isLimits]
  decide

end Ledger

end FollowOn

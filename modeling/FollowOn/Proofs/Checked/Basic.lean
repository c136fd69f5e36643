import FollowOn.Amount
import FollowOn.BitLength
import Mathlib.Algebra.Order.BigOperators.Group.List
import Mathlib.Algebra.Order.Group.Int
import Mathlib.Algebra.Order.Group.Nat

namespace FollowOn

/-!
# Checked arithmetic

Plans are computed with whole numbers of any size. This module has the same
operations as a machine has them: each gives its exact result if a machine word
of the stated width holds it, and nothing otherwise; nor is there a quotient
by zero, a difference below zero of unsigned numbers, a shift by the whole
width, or an item at a place outside a list. A computation in such steps has a
result exactly if each of its steps has one.
-/

namespace Checked

/-- A number as an amount of money: a signed word of 64 bits. -/
def amount? (value : Int) : Option Int :=
  if Amount.InRange value then some value else none

/-- A number as a signed word of 128 bits. -/
def wide? (value : Int) : Option Int :=
  if -2 ^ 127 ≤ value ∧ value < 2 ^ 127 then some value else none

/-- A number as an unsigned word. -/
def word?
    (bits value : Nat) :
    Option Nat :=
  if value < 2 ^ bits then some value else none

/-- A signed number taken for an unsigned one. -/
def unsigned? (value : Int) : Option Nat :=
  if 0 ≤ value then some value.toNat else none

/-- The difference of unsigned numbers. -/
def less?
    (left right : Nat) :
    Option Nat :=
  if right ≤ left then some (left - right) else none

/-- The quotient of unsigned numbers, rounded down. -/
def quotient?
    (dividend divisor : Nat) :
    Option Nat :=
  if divisor = 0 then none else some (dividend / divisor)

/-- The quotient of amounts, rounded towards zero. -/
def amountQuotient?
    (dividend divisor : Int) :
    Option Int :=
  if divisor = 0 then none else amount? (dividend.tdiv divisor)

/-- What a division of amounts leaves; it fails where the division does. -/
def amountRemainder?
    (dividend divisor : Int) :
    Option Int := do
  let _ ← amountQuotient? dividend divisor
  some (dividend.tmod divisor)

/-- A word shifted down by a number of places below its width. -/
def shiftDown?
    (bits value places : Nat) :
    Option Nat :=
  if places < bits then some (value >>> places) else none

/-- Number of binary digits of a word: its width less its leading zeros. -/
def digits?
    (bits value : Nat) :
    Option Nat := do
  let leadingZeros ← less? bits (bitLength value)
  less? bits leadingZeros

/-- The sum of numbers that are added one by one, each sum a word. -/
def sum?
    {α : Type}
    [Zero α]
    [Add α]
    (word? : α → Option α)
    (values : List α) :
    Option α :=
  values.foldlM (fun sum value => word? (sum + value)) 0

/-- A list after a change of the item at one of its places. -/
def update?
    {α : Type}
    (change : α → α)
    (items : List α)
    (place : Nat) :
    Option (List α) :=
  if place < items.length then
    some (items.modify place change)
  else
    none

/-- The items from a place on, at most from the end. -/
def from?
    {α : Type}
    (items : List α)
    (place : Nat) :
    Option (List α) :=
  if place ≤ items.length then some (items.drop place) else none

/-- The items for which a test holds. -/
def select?
    {α : Type}
    (test : α → Option Bool) :
    List α →
    Option (List α)
  | [] => some []
  | item :: rest => do
      let isSelected ← test item
      let selected ← select? test rest
      some (if isSelected then item :: selected else selected)

/-- An amount in range passes the check of a word of 64 bits unchanged. -/
theorem amount?_of_inRange
    {value : Int}
    (inRange : Amount.InRange value) :
    amount? value = some value :=
  if_pos inRange

/-- Amounts from zero to the greatest one are in range. -/
theorem inRange_of_bounds
    {value : Int}
    (notNegative : 0 ≤ value)
    (atMost : value ≤ Amount.greatest) :
    Amount.InRange value := by
  refine ⟨?_, atMost⟩
  simp only [Amount.least]
  omega

/-- An amount from zero to the greatest one passes the check of its word. -/
theorem amount?_of_bounds
    {value : Int}
    (notNegative : 0 ≤ value)
    (atMost : value ≤ Amount.greatest) :
    amount? value = some value :=
  amount?_of_inRange (inRange_of_bounds notNegative atMost)

/-- An integer of 128 bits passes the check of its word unchanged. -/
theorem wide?_of_bounds
    {value : Int}
    (atLeast : -2 ^ 127 ≤ value)
    (below : value < 2 ^ 127) :
    wide? value = some value :=
  if_pos ⟨atLeast, below⟩

/-- A count below its power of two passes the check of its word unchanged. -/
theorem word?_of_lt
    {bits value : Nat}
    (below : value < 2 ^ bits) :
    word? bits value = some value :=
  if_pos below

/-- A count that its word cannot hold ends the run. -/
theorem word?_eq_none
    {bits value : Nat}
    (tooLarge : ¬value < 2 ^ bits) :
    word? bits value = none :=
  if_neg tooLarge

/-- The conversion to a count succeeds for amounts that are not below zero. -/
theorem unsigned?_of_nonneg
    {value : Int}
    (notNegative : 0 ≤ value) :
    unsigned? value = some value.toNat :=
  if_pos notNegative

/-- A division by a positive count does not end the run. -/
theorem quotient?_of_pos
    {divisor : Nat}
    (positive : 0 < divisor)
    (dividend : Nat) :
    quotient? dividend divisor = some (dividend / divisor) :=
  if_neg (Nat.ne_of_gt positive)

/-- A shift by fewer places than the word is wide does not end the run. -/
theorem shiftDown?_of_lt
    {bits places : Nat}
    (below : places < bits)
    (value : Nat) :
    shiftDown? bits value places = some (value >>> places) :=
  if_pos below

/-- Writing at a place within the list does not end the run. -/
theorem update?_of_lt
    {α : Type}
    {items : List α}
    {place : Nat}
    (inside : place < items.length)
    (change : α → α) :
    update? change items place = some (items.modify place change) :=
  if_pos inside

/-- A slice from a place up to the end of the list does not end the run. -/
theorem from?_of_le
    {α : Type}
    {items : List α}
    {place : Nat}
    (inside : place ≤ items.length) :
    from? items place = some (items.drop place) :=
  if_pos inside

/-- The width less the leading zeros is the number of significant bits. -/
theorem digits?_of_lt
    {bits value : Nat}
    (below : value < 2 ^ bits) :
    digits? bits value = some (bitLength value) := by
  have fewer := bitLength_le_iff.mpr below
  simp only [digits?, less?, if_pos fewer, Option.bind_eq_bind,
    Option.bind_some]
  rw [if_pos (Nat.sub_le bits (bitLength value)),
    Nat.sub_sub_self fewer]

section Quotients

variable
    {dividend divisor : Int}
    (notNegative : 0 ≤ dividend)
    (atMost : dividend ≤ Amount.greatest)
    (positive : 0 < divisor)

include notNegative atMost positive

/-- Amounts from zero up are divided by a positive one without leaving their range. -/
theorem amountQuotient?_of_pos :
    amountQuotient? dividend divisor = some (dividend / divisor) := by
  rw [amountQuotient?, if_neg (Int.ne_of_gt positive),
    Int.tdiv_eq_ediv_of_nonneg notNegative]
  refine amount?_of_bounds ?_ ?_
  · exact Int.ediv_nonneg notNegative (Int.le_of_lt positive)
  · exact Int.le_trans (Int.ediv_le_self divisor notNegative) atMost

/-- The remainder is there wherever the quotient is. -/
theorem amountRemainder?_of_pos :
    amountRemainder? dividend divisor = some (dividend % divisor) := by
  rw [amountRemainder?,
    amountQuotient?_of_pos notNegative atMost positive,
    Option.bind_eq_bind, Option.bind_some,
    Int.tmod_eq_emod_of_nonneg notNegative]

end Quotients

section Lists

variable
    {α β : Type}

/-- A map whose every step succeeds is the map of the results. -/
theorem mapM_eq_some_map
    {step : α → Option β}
    {result : α → β}
    {items : List α}
    (steps : ∀ item ∈ items, step item = some (result item)) :
    items.mapM step = some (items.map result) := by
  induction items with
  | nil =>
      rfl
  | cons item rest inductionHypothesis =>
      rw [List.forall_mem_cons] at steps
      rw [List.mapM_cons, steps.1, inductionHypothesis steps.2]
      rfl

/-- A search for any item whose every test succeeds is the search by the answers. -/
theorem anyM_eq_some_any
    {test : α → Option Bool}
    {answer : α → Bool}
    {items : List α}
    (tests : ∀ item ∈ items, test item = some (answer item)) :
    items.anyM test = some (items.any answer) := by
  induction items with
  | nil =>
      rfl
  | cons item rest inductionHypothesis =>
      rw [List.forall_mem_cons] at tests
      rw [List.anyM, tests.1, List.any_cons]
      cases answer item with
      | true => rfl
      | false => exact inductionHypothesis tests.2

/-- A search for the first item whose every test succeeds is the search by the answers. -/
theorem findM?_eq_some_find?
    {test : α → Option Bool}
    {answer : α → Bool}
    {items : List α}
    (tests : ∀ item ∈ items, test item = some (answer item)) :
    items.findM? test = some (items.find? answer) := by
  induction items with
  | nil =>
      rfl
  | cons item rest inductionHypothesis =>
      rw [List.forall_mem_cons] at tests
      rw [List.findM?, tests.1, List.find?_cons]
      cases answer item with
      | true => rfl
      | false => exact inductionHypothesis tests.2

/-- A selection whose every test succeeds is the filter by the answers. -/
theorem select?_eq_some_filter
    {test : α → Option Bool}
    {answer : α → Bool}
    {items : List α}
    (tests : ∀ item ∈ items, test item = some (answer item)) :
    select? test items = some (items.filter answer) := by
  induction items with
  | nil =>
      rfl
  | cons item rest inductionHypothesis =>
      rw [List.forall_mem_cons] at tests
      rw [select?, tests.1, inductionHypothesis tests.2,
        List.filter_cons]
      rfl

/-- A change at one place that leaves a field as it is changes it nowhere. -/
theorem map_modify_of_unchanged
    {change : α → α}
    {field : α → β}
    (unchanged : ∀ item, field (change item) = field item)
    (items : List α)
    (place : Nat) :
    (items.modify place change).map field = items.map field := by
  apply List.ext_getElem?
  intro other
  simp only [List.getElem?_map, List.getElem?_modify]
  cases items[other]? with
  | none => rfl
  | some item =>
      by_cases same : place = other <;> simp [same, unchanged]

/-- A change at some places of a list, which makes no difference when repeated. -/
theorem foldlM_update?
    {change : α → α}
    (repeated : ∀ item, change (change item) = change item)
    {places : List Nat}
    {items : List α}
    (inside : ∀ place ∈ places, place < items.length) :
    places.foldlM (update? change) items =
      some
        (items.mapIdx fun place item =>
          if place ∈ places then change item else item) := by
  induction places generalizing items with
  | nil =>
      have untouched : items.mapIdx (fun _ item => item) = items := by
        apply List.ext_getElem?
        simp
      simp [untouched]
  | cons place rest inductionHypothesis =>
      rw [List.forall_mem_cons] at inside
      have others :
          ∀ other ∈ rest,
            other < (items.modify place change).length := by
        simpa using inside.2
      rw [List.foldlM_cons, update?_of_lt inside.1,
        Option.bind_eq_bind, Option.bind_some,
        inductionHypothesis others]
      congr 1
      apply List.ext_getElem?
      intro other
      simp only [List.getElem?_mapIdx, List.getElem?_modify,
        List.mem_cons]
      by_cases same : place = other
      · subst same
        cases items[place]? <;> simp [repeated]
      · simp [same, Ne.symm same]

end Lists

/-- Numbers are added up if every sum on the way is a word. -/
theorem sum?_of_prefixes
    {α : Type}
    [AddCommMonoid α]
    {word? : α → Option α}
    {values : List α}
    (fits :
      ∀ taken, taken <+: values → word? taken.sum = some taken.sum) :
    sum? word? values = some values.sum := by
  suffices fromTaken :
      ∀ taken rest : List α, taken ++ rest = values →
        rest.foldlM (fun sum value => word? (sum + value)) taken.sum =
          some values.sum from
    fromTaken [] values rfl
  intro taken rest
  induction rest generalizing taken with
  | nil =>
      intro all
      rw [← all, List.append_nil]
      rfl
  | cons value rest inductionHypothesis =>
      intro all
      have next : (taken ++ [value]) ++ rest = values := by
        rw [List.append_assoc, List.singleton_append, all]
      have nextFits := fits (taken ++ [value]) ⟨rest, next⟩
      rw [List.sum_append, List.sum_singleton] at nextFits
      rw [List.foldlM_cons, nextFits]
      have others := inductionHypothesis _ next
      rw [List.sum_append, List.sum_singleton] at others
      exact others

/--
Numbers not below zero are added up if every number up to their sum is a word:
no sum on the way exceeds the last one.
-/
theorem sum?_eq_some_sum
    {α : Type}
    [AddCommMonoid α]
    [PartialOrder α]
    [IsOrderedAddMonoid α]
    {word? : α → Option α}
    {greatest : α}
    (fits :
      ∀ value, 0 ≤ value → value ≤ greatest → word? value = some value)
    {values : List α}
    (notNegative : ∀ value ∈ values, 0 ≤ value)
    (atMost : values.sum ≤ greatest) :
    sum? word? values = some values.sum := by
  apply sum?_of_prefixes
  rintro taken ⟨rest, all⟩
  rw [← all, List.forall_mem_append] at notNegative
  rw [← all, List.sum_append] at atMost
  exact
    fits _ (List.sum_nonneg notNegative.1)
      (le_trans
        (le_add_of_nonneg_right (List.sum_nonneg notNegative.2))
        atMost)

/-- Amounts not below zero are added up if their sum is an amount. -/
theorem sum?_amount?
    {values : List Int}
    (notNegative : ∀ value ∈ values, 0 ≤ value)
    (atMost : values.sum ≤ Amount.greatest) :
    sum? amount? values = some values.sum :=
  sum?_eq_some_sum (fun _ => amount?_of_bounds) notNegative atMost

section Wide

variable
    {values : List Int}
    (inRange : ∀ value ∈ values, Amount.InRange value)
    (few : values.length < 2 ^ 63)

include inRange few

/-- Fewer amounts than a word of 63 bits can count stay far within the wide words. -/
theorem sum_bounds_of_inRange :
    -2 ^ 126 ≤ values.sum ∧ values.sum < 2 ^ 126 := by
  have upper :=
    values.sum_le_card_nsmul Amount.greatest
      fun value member => (inRange value member).2
  have lower :=
    values.card_nsmul_le_sum Amount.least
      fun value member => (inRange value member).1
  rw [Int.nsmul_eq_mul] at upper lower
  simp only [Amount.least, Amount.greatest] at upper lower
  omega

/-- So many amounts add up within 128 bits. -/
theorem sum?_wide? :
    sum? wide? values = some values.sum := by
  apply sum?_of_prefixes
  rintro taken isPrefix
  have bounds :=
    sum_bounds_of_inRange
      (fun value member => inRange value (isPrefix.subset member))
      (Nat.lt_of_le_of_lt isPrefix.length_le few)
  exact wide?_of_bounds (by omega) (by omega)

end Wide

end Checked

end FollowOn

import FollowOn.Proofs.Decimal.Numeral
import Mathlib.Data.Nat.Digits.Defs

namespace FollowOn

/-!
# How short the shortest forms are

The search for the shortest form of a number tries the coarse grids first. So
if the number is the one nearest to some millionths, the search ends on the
grid of millionths at the latest, and below `2 ^ 33` the significand that it
finds is held exactly. The numeral that is written then is short as well.
-/

namespace Decimal

/-- A decimal number below `10 ^ 10`, of few places and with a significand that is held exactly. -/
structure IsShort (number : Decimal) : Prop where
  significand_lt : number.significand < 2 ^ 53
  exponent_ge : -7 ≤ number.exponent
  pointPlace_le : number.pointPlace ≤ 10

/-- A numeral whose digits are held exactly, and whose power of ten as well. -/
structure Numeral.IsShort (numeral : Numeral) : Prop where
  significand_lt :
    natOfDigits (numeral.whole ++ numeral.fraction) < 2 ^ 53
  exponent_lt : (numeral.exponent.getD 0).natAbs < 2 ^ 31
  place_ge :
    -22 ≤ numeral.exponent.getD 0 - numeral.fraction.length
  place_le :
    numeral.exponent.getD 0 - numeral.fraction.length ≤ 22

section Written

variable
    {number : Decimal}

/-- Cutting zeros does not make a significand greater. -/
theorem natOfDigits_significantDigits_le :
    natOfDigits number.significantDigits ≤ number.significand := by
  by_cases zero : number.significand = 0
  · rw [significantDigits, if_pos zero]
    exact Nat.zero_le _
  · have cut := natOfDigits_significantDigits zero
    calc
      natOfDigits number.significantDigits
          ≤ natOfDigits number.significantDigits *
              10 ^ number.trimmedDigits.2 :=
            Nat.le_mul_of_pos_right _ (Nat.pow_pos (by decide))
      _ = number.significand := cut

/-- Every number has a significant digit. -/
theorem length_significantDigits_pos :
    0 < number.significantDigits.length := by
  by_cases zero : number.significand = 0
  · rw [significantDigits, if_pos zero]
    exact Nat.one_pos
  · obtain ⟨first, rest, isSignificant, -⟩ :=
      exists_significantDigits_eq_cons zero
    rw [isSignificant]
    exact Nat.succ_pos _

/-- The last significant digit stands no further behind than the last digit. -/
theorem IsShort.place_ge
    (short : number.IsShort) :
    -7 ≤ number.pointPlace - number.significantDigits.length := by
  have last := short.exponent_ge
  by_cases zero : number.significand = 0
  · rw [pointPlace, significantDigits, if_pos zero, if_pos zero]
    decide
  · rw [pointPlace_eq zero]
    omega

/-- A short number is written as a short numeral. -/
theorem IsShort.numeral
    (short : number.IsShort)
    {numeral : Numeral}
    (standsFor :
      numeral.StandsFor number.significantDigits number.pointPlace) :
    numeral.IsShort := by
  obtain ⟨zeros, single, isValue⟩ := standsFor.value_eq
  have significand :
      natOfDigits (numeral.whole ++ numeral.fraction) =
        natOfDigits number.significantDigits * 10 ^ zeros :=
    congrArg Decimal.significand (isValue false)
  have place :
      numeral.exponent.getD 0 - numeral.fraction.length =
        number.pointPlace - number.significantDigits.length - zeros :=
    congrArg Decimal.exponent (isValue false)
  have someDigit : 0 < number.significantDigits.length :=
    length_significantDigits_pos
  have last := short.place_ge
  have first := short.pointPlace_le
  have exponent_lt : (numeral.exponent.getD 0).natAbs < 2 ^ 31 := by
    rcases standsFor.exponent_eq with none | some <;> omega
  rcases Nat.eq_zero_or_pos zeros with noZero | someZero
  · subst noZero
    refine ⟨?_, exponent_lt, by omega, by omega⟩
    rw [significand, Nat.pow_zero, Nat.mul_one]
    exact Nat.lt_of_le_of_lt natOfDigits_significantDigits_le
      short.significand_lt
  · have isTenth := single someZero
    refine ⟨?_, exponent_lt, by omega, by omega⟩
    have areDigits :
        ∀ digit ∈ number.significantDigits, digit.isDigit = true :=
      fun _ member => isDigit_of_mem_significantDigits member
    calc
      natOfDigits (numeral.whole ++ numeral.fraction)
          = natOfDigits number.significantDigits * 10 ^ zeros :=
            significand
      _ ≤ 10 ^ number.significantDigits.length * 10 ^ zeros :=
            Nat.mul_le_mul_right _
              (Nat.le_of_lt (natOfDigits_lt areDigits))
      _ = 10 ^ (number.significantDigits.length + zeros) :=
            (Nat.pow_add 10 _ _).symm
      _ ≤ 10 ^ 11 := Nat.pow_le_pow_right (by decide) (by omega)
      _ < 2 ^ 53 := by decide

/-- So many digits, and no more, stand before the point. -/
theorem pointPlace_le_of_lt
    {places : Nat}
    (someDigit : 0 < places)
    (below : number.significand < 10 ^ places)
    {point : Int}
    (positive : 1 ≤ point)
    (fits : places + number.exponent ≤ point) :
    number.pointPlace ≤ point := by
  rw [pointPlace]
  split
  · exact positive
  · have length :=
      Nat.toDigits_length 10 number.significand places someDigit below
    rw [digits]
    omega

end Written

section LeadingPlace

variable
    {numerator denominator places : Nat}

/-- Below a power of ten no digit stands at its place. -/
theorem leadingPlace_le
    (positive : 0 < denominator)
    (below : numerator < 10 ^ (places + 1) * denominator) :
    leadingPlace numerator denominator ≤ places := by
  rw [leadingPlace]
  split
  · have length :=
      Nat.toDigits_length 10 (numerator / denominator) (places + 1)
        (Nat.succ_pos places)
        ((Nat.div_lt_iff_lt_mul positive).mpr below)
    rw [digits]
    omega
  · omega

/-- A number that reaches a power of ten has a digit at its place or before. -/
theorem le_leadingPlace
    (positive : 0 < numerator)
    (reaches : denominator ≤ numerator * 10 ^ places) :
    -places ≤ leadingPlace numerator denominator := by
  rw [leadingPlace]
  split
  · have someDigit :=
      List.length_pos_iff.mpr (digits_ne_nil (numerator / denominator))
    omega
  · rename_i less
    have somePlace : 0 < places := by
      apply Nat.pos_of_ne_zero
      intro noPlace
      rw [noPlace, Nat.pow_zero, Nat.mul_one] at reaches
      exact less reaches
    have below : (denominator - 1) / numerator < 10 ^ places := by
      rw [Nat.div_lt_iff_lt_mul positive, Nat.mul_comm]
      omega
    have length := Nat.toDigits_length 10 _ places somePlace below
    rw [digits]
    omega

end LeadingPlace

section Grid

variable
    {decimal : Decimal}
    {units : Nat}

/-- A point at most a step above a number below `2 ^ 33`, on a grid of whole numbers. -/
theorem isShort_of_wholeGrid
    {places : Nat}
    (isExponent : decimal.exponent = places)
    (few : places ≤ 9)
    (small : units < 2 ^ 33 * Binary64.unitsPerOne)
    (atMost :
      decimal.significand ≤
        units / (Binary64.unitsPerOne * 10 ^ places) + 1) :
    decimal.IsShort := by
  have whole : units / Binary64.unitsPerOne < 2 ^ 33 :=
    (Nat.div_lt_iff_lt_mul Binary64.unitsPerOne_pos).mpr small
  have coarser :=
    Nat.div_le_self (units / Binary64.unitsPerOne) (10 ^ places)
  have step : 10 ^ places ≤ 10 ^ 9 :=
    Nat.pow_le_pow_right (by decide) few
  have split : 10 ^ (10 - places) * 10 ^ places = 10 ^ 10 := by
    rw [← Nat.pow_add, Nat.sub_add_cancel (by omega)]
  rw [← Nat.div_div_eq_div_mul] at atMost
  have below : decimal.significand < 10 ^ (10 - places) := by
    apply Nat.lt_of_mul_lt_mul_right (a := 10 ^ places)
    calc
      decimal.significand * 10 ^ places
          ≤ (units / Binary64.unitsPerOne / 10 ^ places + 1) *
              10 ^ places := Nat.mul_le_mul_right _ atMost
      _ = units / Binary64.unitsPerOne / 10 ^ places * 10 ^ places +
              10 ^ places := by rw [Nat.add_mul, Nat.one_mul]
      _ ≤ units / Binary64.unitsPerOne + 10 ^ places :=
            Nat.add_le_add_right (Nat.div_mul_le_self _ _) _
      _ < 10 ^ (10 - places) * 10 ^ places := by omega
  exact
    { significand_lt := by omega
      exponent_ge := by omega
      pointPlace_le :=
        pointPlace_le_of_lt (by omega) below (by decide) (by omega) }

/-- A point at most a step above a number below `2 ^ 33`, on a grid of some decimal places. -/
theorem isShort_of_fineGrid
    {fewer : Nat}
    (isExponent : decimal.exponent = .negSucc fewer)
    (few : fewer < 6)
    (small : units < 2 ^ 33 * Binary64.unitsPerOne)
    (atMost :
      decimal.significand ≤
        units * 10 ^ (fewer + 1) / Binary64.unitsPerOne + 1) :
    decimal.IsShort := by
  have below :
      units * 10 ^ (fewer + 1) / Binary64.unitsPerOne <
        2 ^ 33 * 10 ^ (fewer + 1) := by
    rw [Nat.div_lt_iff_lt_mul Binary64.unitsPerOne_pos,
      Nat.mul_right_comm]
    exact Nat.mul_lt_mul_of_pos_right small (Nat.pow_pos (by decide))
  have finest : 10 ^ (fewer + 1) ≤ 10 ^ 6 :=
    Nat.pow_le_pow_right (by decide) few
  have positive : 0 < 10 ^ (fewer + 1) := Nat.pow_pos (by decide)
  have digitsBelow :
      decimal.significand < 10 ^ (10 + (fewer + 1)) := by
    rw [Nat.pow_add]
    omega
  exact
    { significand_lt := by omega
      exponent_ge := by omega
      pointPlace_le :=
        pointPlace_le_of_lt (by omega) digitsBelow (by decide)
          (by omega) }

end Grid

section Search

variable
    {tie : Tie}
    {negative : Bool}
    {units count : Nat}

/-- What is found with some count of digits lies on the grid of that count. -/
theorem exponent_of_withDigits?
    {decimal : Decimal}
    (found : withDigits? tie negative units count = some decimal) :
    decimal.exponent =
      leadingPlace units Binary64.unitsPerOne - (count - 1) := by
  obtain ⟨significand, -, isPoint⟩ :=
    List.mem_map.mp (List.mem_of_find?_eq_some found)
  rw [← isPoint]

/-- What is found lies one step of its grid above the number at most. -/
theorem significand_of_withDigits?_le
    {decimal : Decimal}
    (found : withDigits? tie negative units count = some decimal) :
    decimal.significand ≤
      (shiftPlaces units Binary64.unitsPerOne decimal.exponent).1 /
        (shiftPlaces units Binary64.unitsPerOne decimal.exponent).2 +
          1 := by
  rw [exponent_of_withDigits? found]
  obtain ⟨significand, candidate, isPoint⟩ :=
    List.mem_map.mp (List.mem_of_find?_eq_some found)
  rw [← isPoint]
  simp only [List.mem_cons, List.not_mem_nil, or_false] at candidate
  rcases candidate with nearest | below | above
  · rw [nearest]
    exact roundDiv_le_div_add_one _ _ _
  · rw [below]
    exact Nat.le_succ _
  · exact Nat.le_of_eq above

/-- The search ends with a count of digits if the nearest grid point reads back. -/
theorem isSome_withDigits?
    {place : Int}
    (isPlace :
      leadingPlace units Binary64.unitsPerOne - (count - 1) = place)
    (readsBack :
      (Decimal.mk negative
          (roundDiv tie
            (shiftPlaces units Binary64.unitsPerOne place).1
            (shiftPlaces units Binary64.unitsPerOne place).2)
          place).toBinary64 =
        .finite negative units) :
    (withDigits? tie negative units count).isSome = true := by
  simp only [withDigits?, isPlace, List.find?_isSome]
  refine ⟨_, List.mem_map_of_mem List.mem_cons_self, ?_⟩
  rw [readsBackAs, readsBack, beq_self_eq_true]

/-- The shortest form has no more digits than any count with which the search ends. -/
theorem exists_withDigits?_eq_shortest
    (notZero : units ≠ 0)
    (inSearch : 1 ≤ count ∧ count ≤ 17)
    (found : (withDigits? tie negative units count).isSome = true) :
    ∃ fewer,
      1 ≤ fewer ∧ fewer ≤ count ∧
        withDigits? tie negative units fewer =
          some (shortest tie negative units) := by
  have member : count ∈ List.range' 1 17 :=
    List.mem_range'_1.mpr ⟨inSearch.1, by omega⟩
  rw [shortest, if_neg notZero]
  cases search :
      (List.range' 1 17).findSome?
        (withDigits? tie negative units) with
  | none =>
      rw [List.findSome?_eq_none_iff.mp search count member] at found
      cases found
  | some decimal =>
      obtain ⟨front, fewer, back, isRange, isForm, noneBefore⟩ :=
        List.findSome?_eq_some_iff.mp search
      have ascending : (front ++ fewer :: back).Pairwise (· < ·) := by
        rw [← isRange]
        exact List.pairwise_lt_range'
      have inRange : fewer ∈ List.range' 1 17 := by
        rw [isRange]
        exact List.mem_append_right _ List.mem_cons_self
      refine ⟨fewer, (List.mem_range'_1.mp inRange).1, ?_, isForm⟩
      rw [isRange] at member
      rcases List.mem_append.mp member with before | fromHere
      · rw [noneBefore count before] at found
        cases found
      · rcases List.mem_cons.mp fromHere with here | after
        · exact Nat.le_of_eq here.symm
        · have fromFewer := (List.pairwise_append.mp ascending).2.1
          exact Nat.le_of_lt
            ((List.pairwise_cons.mp fromFewer).1 count after)

/-- On the grids from millionths to `10 ^ 9`, what is found of a number below `2 ^ 33` is short. -/
theorem isShort_of_withDigits?
    {decimal : Decimal}
    (found : withDigits? tie negative units count = some decimal)
    (onGrid : -6 ≤ decimal.exponent ∧ decimal.exponent ≤ 9)
    (small : units < 2 ^ 33 * Binary64.unitsPerOne) :
    decimal.IsShort := by
  have atMost := significand_of_withDigits?_le found
  cases isExponent : decimal.exponent with
  | ofNat places =>
      rw [isExponent] at onGrid atMost
      exact isShort_of_wholeGrid isExponent
        (Int.ofNat_le.mp onGrid.2) small atMost
  | negSucc fewer =>
      rw [isExponent] at onGrid atMost
      exact isShort_of_fineGrid isExponent (by omega) small atMost

/-- The shortest form of a number that millionths give back is short. -/
theorem isShort_shortest
    (reaches : Binary64.unitsPerOne ≤ units * 10 ^ 6)
    (small : units < 2 ^ 33 * Binary64.unitsPerOne)
    (readsBack :
      (Decimal.mk negative
          (roundDiv tie (units * 10 ^ 6) Binary64.unitsPerOne)
          (-6)).toBinary64 =
        .finite negative units) :
    (shortest tie negative units).IsShort := by
  have positive := Binary64.unitsPerOne_pos
  have notZero : units ≠ 0 := by
    intro zero
    rw [zero, Nat.zero_mul] at reaches
    omega
  have leadingAtLeast :=
    le_leadingPlace (Nat.pos_of_ne_zero notZero) reaches
  have leadingAtMost :
      leadingPlace units Binary64.unitsPerOne ≤ (9 : Nat) := by
    refine leadingPlace_le positive (Nat.lt_trans small ?_)
    exact Nat.mul_lt_mul_of_pos_right (by decide) positive
  obtain ⟨count, isCount⟩ :=
    Int.eq_ofNat_of_zero_le
      (show 0 ≤ leadingPlace units Binary64.unitsPerOne + 7 by omega)
  have found : (withDigits? tie negative units count).isSome = true :=
    isSome_withDigits?
      (show leadingPlace units Binary64.unitsPerOne - (count - 1) = -6
        by omega)
      readsBack
  obtain ⟨fewer, someDigit, atMost, isShortest⟩ :=
    exists_withDigits?_eq_shortest notZero (by omega) found
  have onGrid := exponent_of_withDigits? isShortest
  exact isShort_of_withDigits? isShortest (by omega) small

end Search

end Decimal

end FollowOn

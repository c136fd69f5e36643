import FollowOn.Decimal.Layout
import Mathlib.Data.List.TakeDrop
import Mathlib.Data.List.TakeWhile

namespace FollowOn

/-!
# Decimal digits

The digits of a natural number stand for it, and only zero has a leading zero.
Zeros in front of digits add nothing, zeros behind them multiply by ten. The
significant digits of a decimal number are its digits without the zeros at
their end.
-/

namespace Decimal

/-- Digits are read as the library reads them. -/
theorem natOfDigits_eq_ofDigitChars
    (digits : List Char) :
    natOfDigits digits = Nat.ofDigitChars 10 digits 0 := rfl

/-- Digits in front count by the power of ten of those behind. -/
theorem natOfDigits_append
    (front back : List Char) :
    natOfDigits (front ++ back) =
      natOfDigits front * 10 ^ back.length + natOfDigits back := by
  simp only [natOfDigits_eq_ofDigitChars, Nat.ofDigitChars_append]
  rw [Nat.ofDigitChars_eq_ofDigitChars_zero, Nat.mul_comm]

/-- Zeros alone stand for zero. -/
@[simp] theorem natOfDigits_replicate_zero
    (count : Nat) :
    natOfDigits (List.replicate count '0') = 0 := by
  rw [natOfDigits_eq_ofDigitChars, Nat.ofDigitChars_replicate_zero,
    Nat.mul_zero]

/-- The digits of a number stand for it. -/
@[simp] theorem natOfDigits_digits
    (number : Nat) :
    natOfDigits (digits number) = number :=
  Nat.ofDigitChars_ten_toDigits

/-- Every number has a digit. -/
theorem digits_ne_nil
    (number : Nat) :
    digits number ≠ [] :=
  Nat.toDigits_ne_nil

/-- Only digits are written for a number. -/
theorem isDigit_of_mem_digits
    {number : Nat}
    {digit : Char}
    (member : digit ∈ digits number) :
    digit.isDigit = true :=
  Nat.isDigit_of_mem_toDigits (by decide) (by decide) member

/-- So many digits stand for a number below that power of ten. -/
theorem natOfDigits_lt
    {digits : List Char}
    (areDigits : ∀ digit ∈ digits, digit.isDigit = true) :
    natOfDigits digits < 10 ^ digits.length := by
  induction digits with
  | nil =>
      exact Nat.one_pos
  | cons first rest inductionHypothesis =>
      have below :=
        inductionHypothesis fun digit member =>
          areDigits digit (List.mem_cons_of_mem first member)
      obtain ⟨-, code⟩ :=
        Char.isDigit_iff_toNat.mp (areDigits first List.mem_cons_self)
      have atMostNine : natOfDigits [first] ≤ 9 := by
        change 10 * 0 + (first.toNat - 48) ≤ 9
        change first.toNat ≤ 57 at code
        omega
      have front := Nat.mul_le_mul_right (10 ^ rest.length) atMostNine
      rw [← List.singleton_append, natOfDigits_append,
        List.length_append, List.length_singleton, Nat.add_comm 1,
        Nat.pow_succ]
      omega

/-- The digits of a number start with a digit. -/
theorem exists_isDigit_cons
    (number : Nat) :
    ∃ first rest,
      digits number = first :: rest ∧ first.isDigit = true := by
  obtain ⟨first, rest, isDigits⟩ :=
    List.exists_cons_of_ne_nil (digits_ne_nil number)
  have member : first ∈ digits number := by
    rw [isDigits]
    exact List.mem_cons_self
  exact ⟨first, rest, isDigits, isDigit_of_mem_digits member⟩

/-- The first digit of a positive number is not zero. -/
theorem exists_digits_eq_cons
    {number : Nat}
    (positive : number ≠ 0) :
    ∃ first rest, digits number = first :: rest ∧ first ≠ '0' := by
  induction number using Nat.strongRecOn with
  | ind number inductionHypothesis =>
      rw [digits, Nat.toDigits_eq_if (by decide)]
      split
      · rename_i single
        refine ⟨_, [], rfl, ?_⟩
        intro isZero
        have code := Nat.toNat_digitChar_of_lt_ten single
        rw [isZero] at code
        change 48 = 48 + number at code
        omega
      · rename_i several
        obtain ⟨first, rest, isDigits, notZero⟩ :=
          inductionHypothesis (number / 10) (by omega) (by omega)
        rw [digits] at isDigits
        rw [isDigits]
        exact ⟨first, _, rfl, notZero⟩

/-- No zero stands in front of another digit of a number. -/
theorem digits_start
    (number : Nat) :
    digits number = ['0'] ∨
      ∃ first rest, digits number = first :: rest ∧ first ≠ '0' := by
  by_cases zero : number = 0
  · rw [zero]
    exact Or.inl rfl
  · exact Or.inr (exists_digits_eq_cons zero)

/-- The significant digits and the zeros that were cut make up all digits. -/
theorem trimmedDigits_append
    (number : Decimal) :
    number.trimmedDigits.1 ++
        List.replicate number.trimmedDigits.2 '0' =
      digits number.significand := by
  have areZeros :
      ∀ digit ∈
          (digits number.significand).reverse.takeWhile (· = '0'),
        digit = '0' := by
    intro digit member
    simpa using List.mem_takeWhile_imp member
  simp only [trimmedDigits, List.span_eq_takeWhile_dropWhile]
  rw [← List.reverse_replicate, ← List.eq_replicate_of_mem areZeros,
    ← List.reverse_append, List.takeWhile_append_dropWhile,
    List.reverse_reverse]

section Significant

variable
    {number : Decimal}
    (positive : number.significand ≠ 0)

include positive

/-- Of a positive number only the zeros at the end are cut. -/
theorem significantDigits_eq :
    number.significantDigits = number.trimmedDigits.1 :=
  if_neg positive

/-- The zeros that were cut make up a power of ten. -/
theorem natOfDigits_significantDigits :
    natOfDigits number.significantDigits *
        10 ^ number.trimmedDigits.2 =
      number.significand := by
  have all := congrArg natOfDigits (trimmedDigits_append number)
  rw [natOfDigits_append, natOfDigits_replicate_zero, Nat.add_zero,
    List.length_replicate, natOfDigits_digits] at all
  rw [significantDigits_eq positive, all]

/-- The point stands behind all digits, moved by the exponent. -/
theorem pointPlace_eq :
    number.pointPlace =
      number.significantDigits.length + number.trimmedDigits.2 +
        number.exponent := by
  have all := congrArg List.length (trimmedDigits_append number)
  rw [List.length_append, List.length_replicate] at all
  rw [pointPlace, if_neg positive, significantDigits_eq positive,
    ← all, Int.natCast_add]

/-- Without zeros at their end, the digits of a positive number still start with no zero. -/
theorem exists_significantDigits_eq_cons :
    ∃ first rest,
      number.significantDigits = first :: rest ∧ first ≠ '0' := by
  obtain ⟨first, rest, isDigits, notZero⟩ :=
    exists_digits_eq_cons positive
  have all := trimmedDigits_append number
  rw [isDigits] at all
  rw [significantDigits_eq positive]
  rcases List.append_eq_cons_iff.mp all with
    ⟨-, onlyZeros⟩ | ⟨others, isTrimmed, -⟩
  · have isZero : first = '0' :=
      List.eq_of_mem_replicate (onlyZeros ▸ List.mem_cons_self)
    exact (notZero isZero).elim
  · exact ⟨first, others, isTrimmed, notZero⟩

end Significant

/-- Significant digits are digits. -/
theorem isDigit_of_mem_significantDigits
    {number : Decimal}
    {digit : Char}
    (member : digit ∈ number.significantDigits) :
    digit.isDigit = true := by
  by_cases zero : number.significand = 0
  · rw [significantDigits, if_pos zero, List.mem_singleton] at member
    rw [member]
    rfl
  · rw [significantDigits_eq zero] at member
    apply isDigit_of_mem_digits
    rw [← trimmedDigits_append number]
    exact List.mem_append_left _ member

end Decimal

end FollowOn

import FollowOn.Arithmetic

namespace FollowOn

/-!
# Binary length of a natural number

The number of binary digits of a natural number, and the two bounds that fix
it: a number lies below two to its length, and a positive one reaches two to
one place less. So a number has at most some number of digits exactly if it
lies below two to that number.
-/

/-- Number of binary digits of `number`; zero has none. -/
def bitLength (number : Nat) : Nat :=
  if number = 0 then 0 else number.log2 + 1

/-- Zero has no binary digits. -/
@[simp] theorem bitLength_zero :
    bitLength 0 = 0 := rfl

/-- A number lies below the power of two of its length. -/
theorem lt_two_pow_bitLength
    (number : Nat) :
    number < 2 ^ bitLength number := by
  unfold bitLength
  split
  · simp [*]
  · exact Nat.lt_log2_self

/-- A positive number reaches the power of two before its length. -/
theorem two_pow_le_of_bitLength
    {number : Nat}
    (positive : number ≠ 0) :
    2 ^ (bitLength number - 1) ≤ number := by
  simp only [bitLength, if_neg positive, Nat.add_sub_cancel]
  exact Nat.log2_self_le positive

/-- A length is bounded exactly as the number is by a power of two. -/
theorem bitLength_le_iff
    {number length : Nat} :
    bitLength number ≤ length ↔ number < 2 ^ length := by
  constructor
  · intro short
    exact Nat.lt_of_lt_of_le (lt_two_pow_bitLength number)
      (Nat.pow_le_pow_right Nat.two_pos short)
  · intro small
    by_cases zero : number = 0
    · rw [zero, bitLength_zero]
      exact Nat.zero_le length
    · have leading := two_pow_le_of_bitLength zero
      have shorter : bitLength number - 1 < length :=
        (Nat.pow_lt_pow_iff_right Nat.one_lt_two).mp
          (Nat.lt_of_le_of_lt leading small)
      omega

/-- A greater number is no shorter. -/
theorem bitLength_mono
    {small large : Nat}
    (ordered : small ≤ large) :
    bitLength small ≤ bitLength large :=
  bitLength_le_iff.mpr
    (Nat.lt_of_le_of_lt ordered (lt_two_pow_bitLength large))

end FollowOn

import FollowOn.Proofs.Decimal.Digits
import FollowOn.Proofs.Decimal.Value

namespace FollowOn

/-!
# Written numbers as numerals

A numeral is what a reader makes of a written number: the digits before the
point, the digits after it, and an exponent. In the layout of structured data
every number is written as a numeral of its own value, which has a fraction or
an exponent.
-/

namespace Decimal

/-- The parts of a written number. -/
structure Numeral where
  /-- Digits before the point. -/
  whole : List Char
  /-- Digits after the point; without any there is no point. -/
  fraction : List Char
  exponent : Option Int

namespace Numeral

/-- An exponent with its mark and its sign. -/
def exponentText : Option Int → List Char
  | none => []
  | some exponent =>
      'e' :: (if exponent < 0 then '-' else '+') ::
        digits exponent.natAbs

/-- A fraction with its point. -/
def fractionText (fraction : List Char) : List Char :=
  if fraction = [] then [] else '.' :: fraction

/-- The parts in a row: whole digits, fraction, exponent. -/
def text (numeral : Numeral) : List Char :=
  numeral.whole ++
    (fractionText numeral.fraction ++ exponentText numeral.exponent)

/-- A numeral behind its sign; only a minus is written. -/
def signedText
    (negative : Bool)
    (numeral : Numeral) :
    List Char :=
  if negative then '-' :: numeral.text else numeral.text

/-- The number that a numeral stands for, with a sign. -/
def value
    (negative : Bool)
    (numeral : Numeral) :
    Decimal :=
  ofDigits negative numeral.whole numeral.fraction
    (numeral.exponent.getD 0)

/-- A numeral that can be read, and not as an integer. -/
structure WellFormed (numeral : Numeral) : Prop where
  whole_digits : ∀ digit ∈ numeral.whole, digit.isDigit = true
  /-- No zero stands in front of another digit. -/
  whole_start :
    numeral.whole = ['0'] ∨
      ∃ first rest, numeral.whole = first :: rest ∧ first ≠ '0'
  fraction_digits : ∀ digit ∈ numeral.fraction, digit.isDigit = true
  not_integer : numeral.fraction ≠ [] ∨ numeral.exponent.isSome = true

/-- A numeral that stands for significant digits with the point at some place. -/
structure StandsFor
    (significant : List Char)
    (point : Int)
    (numeral : Numeral) : Prop where
  wellFormed : numeral.WellFormed
  /--
  Its digits are the significant ones with zeros in front or behind, the latter
  only up to a single place after the point.
  -/
  value_eq :
    ∃ zeros : Nat,
      (0 < zeros → point - significant.length - zeros = -1) ∧
        ∀ negative,
          numeral.value negative =
            Decimal.mk negative (natOfDigits significant * 10 ^ zeros)
              (point - significant.length - zeros)
  /-- If it has an exponent, its point follows the first digit. -/
  exponent_eq :
    numeral.exponent.getD 0 = 0 ∨
      numeral.exponent.getD 0 = point - 1

/-- Zeros behind the significant digits do not change the number. -/
theorem StandsFor.toBinary64_value
    {significant : List Char}
    {point : Int}
    {numeral : Numeral}
    (standsFor : StandsFor significant point numeral)
    (negative : Bool) :
    (numeral.value negative).toBinary64 =
      (Decimal.mk negative (natOfDigits significant)
        (point - significant.length)).toBinary64 := by
  obtain ⟨zeros, -, isValue⟩ := standsFor.value_eq
  rw [isValue, toBinary64_mul_ten_pow, Int.sub_add_cancel]

end Numeral

/-- Zeros are digits. -/
theorem isDigit_of_mem_replicate_zero
    {count : Nat}
    {digit : Char}
    (member : digit ∈ List.replicate count '0') :
    digit.isDigit = true := by
  rw [List.eq_of_mem_replicate member]
  rfl

namespace Numeral

variable
    {significant : List Char}
    {point : Int}

/-- No zeros stand behind the significant digits. -/
theorem value_eq_of_digits
    {numeral : Numeral}
    (sameDigits :
      natOfDigits (numeral.whole ++ numeral.fraction) =
        natOfDigits significant)
    (sameExponent :
      numeral.exponent.getD 0 - numeral.fraction.length =
        point - significant.length) :
    ∃ zeros : Nat,
      (0 < zeros → point - significant.length - zeros = -1) ∧
        ∀ negative,
          numeral.value negative =
            Decimal.mk negative (natOfDigits significant * 10 ^ zeros)
              (point - significant.length - zeros) := by
  refine ⟨0, fun someZero => (Nat.lt_irrefl 0 someZero).elim, ?_⟩
  intro negative
  rw [value, ofDigits, sameDigits, sameExponent]
  simp

section Digits

variable
    (areDigits : ∀ digit ∈ significant, digit.isDigit = true)

include areDigits

/-- All significant digits stand after the point. -/
theorem standsFor_afterPoint
    (someDigit : significant ≠ [])
    (small : point ≤ 0) :
    StandsFor significant point
      ⟨['0'], List.replicate (-point).toNat '0' ++ significant,
        none⟩ where
  wellFormed :=
    { whole_digits := by simp
      whole_start := Or.inl rfl
      fraction_digits := by
        intro digit member
        rcases List.mem_append.mp member with isZero | isSignificant
        · exact isDigit_of_mem_replicate_zero isZero
        · exact areDigits digit isSignificant
      not_integer := Or.inl (by simp [someDigit]) }
  value_eq := by
    apply value_eq_of_digits
    · rw [natOfDigits_append, natOfDigits_append,
        natOfDigits_replicate_zero]
      simp [natOfDigits]
    · simp only [Option.getD_none, List.length_append,
        List.length_replicate]
      omega
  exponent_eq := Or.inl rfl

variable
    (start :
      ∃ first rest, significant = first :: rest ∧ first ≠ '0')

include start

/-- All significant digits stand before the point. -/
theorem standsFor_beforePoint
    (fits : significant.length ≤ point.toNat) :
    StandsFor significant point
      ⟨significant ++
          List.replicate (point.toNat - significant.length) '0',
        ['0'], none⟩ where
  wellFormed :=
    { whole_digits := by
        intro digit member
        rcases List.mem_append.mp member with isSignificant | isZero
        · exact areDigits digit isSignificant
        · exact isDigit_of_mem_replicate_zero isZero
      whole_start := by
        obtain ⟨first, rest, isSignificant, notZero⟩ := start
        rw [isSignificant]
        exact Or.inr ⟨first, _, rfl, notZero⟩
      fraction_digits := by simp
      not_integer := Or.inl (by simp) }
  value_eq := by
    obtain ⟨first, rest, isSignificant, -⟩ := start
    have someDigit : 0 < significant.length := by
      rw [isSignificant]
      exact Nat.succ_pos _
    have exponent :
        point - significant.length -
            ((point.toNat - significant.length + 1 : Nat) : Int) =
          -1 := by
      omega
    refine
      ⟨point.toNat - significant.length + 1, fun _ => exponent, ?_⟩
    intro negative
    rw [exponent, value, ofDigits, List.append_assoc,
      ← List.replicate_succ', natOfDigits_append,
      natOfDigits_replicate_zero, List.length_replicate, Nat.add_zero]
    rfl
  exponent_eq := Or.inl rfl

/-- The point stands among the significant digits. -/
theorem standsFor_aroundPoint
    (positive : 0 < point)
    (inside : point.toNat < significant.length) :
    StandsFor significant point
      ⟨significant.take point.toNat, significant.drop point.toNat,
        none⟩ where
  wellFormed :=
    { whole_digits := fun digit member =>
        areDigits digit (List.mem_of_mem_take member)
      whole_start := by
        obtain ⟨first, rest, isSignificant, notZero⟩ := start
        obtain ⟨places, isPlaces⟩ :=
          Nat.exists_eq_add_one.mpr
            (show 0 < point.toNat by omega)
        rw [isSignificant, isPlaces]
        exact Or.inr ⟨first, _, rfl, notZero⟩
      fraction_digits := fun digit member =>
        areDigits digit (List.mem_of_mem_drop member)
      not_integer := Or.inl (by simpa using inside) }
  value_eq := by
    apply value_eq_of_digits
    · rw [List.take_append_drop]
    · simp only [Option.getD_none, List.length_drop]
      omega
  exponent_eq := Or.inl rfl

end Digits

/-- One digit stands before the point, and the exponent says where the point belongs. -/
theorem standsFor_scientific
    {first : Char}
    {others : List Char}
    (areDigits : ∀ digit ∈ first :: others, digit.isDigit = true)
    (notZero : first ≠ '0')
    (point : Int) :
    StandsFor (first :: others) point
      ⟨[first], others, some (point - 1)⟩ where
  wellFormed :=
    { whole_digits := by
        simpa using areDigits first List.mem_cons_self
      whole_start := Or.inr ⟨first, [], rfl, notZero⟩
      fraction_digits := fun digit member =>
        areDigits digit (List.mem_cons_of_mem first member)
      not_integer := Or.inr rfl }
  value_eq := by
    apply value_eq_of_digits
    · rfl
    · simp only [Option.getD_some, List.length_cons]
      omega
  exponent_eq := Or.inr rfl

/-- Zero is written with a zero after the point. -/
theorem standsFor_zero :
    StandsFor ['0'] 1 ⟨['0'], ['0'], none⟩ where
  wellFormed :=
    { whole_digits := by simp
      whole_start := Or.inl rfl
      fraction_digits := by simp
      not_integer := Or.inl (by simp) }
  value_eq := ⟨1, fun _ => rfl, fun _ => rfl⟩
  exponent_eq := Or.inl rfl

end Numeral

/-- Significant digits are written as a numeral of their value. -/
theorem exists_numeral_of_significant
    {first : Char}
    {others : List Char}
    (areDigits : ∀ digit ∈ first :: others, digit.isDigit = true)
    (notZero : first ≠ '0')
    (point : Int) :
    ∃ numeral : Numeral,
      numeral.StandsFor (first :: others) point ∧
        (if Layout.data.positional point then
            plain Layout.data.wholeEnding (first :: others) point
          else
            scientific (first :: others) point) =
          numeral.text := by
  have start :
      ∃ head rest, first :: others = head :: rest ∧ head ≠ '0' :=
    ⟨first, others, rfl, notZero⟩
  split
  · unfold plain
    split
    · rename_i small
      refine
        ⟨_, Numeral.standsFor_afterPoint areDigits
          (List.cons_ne_nil _ _) small, ?_⟩
      simp [Numeral.text, Numeral.fractionText, Numeral.exponentText]
    · rename_i positive
      split
      · rename_i fits
        refine
          ⟨_, Numeral.standsFor_beforePoint areDigits start fits, ?_⟩
        simp [Numeral.text, Numeral.fractionText,
          Numeral.exponentText, Layout.data]
      · rename_i inside
        have isInside := Nat.lt_of_not_le inside
        refine
          ⟨_, Numeral.standsFor_aroundPoint areDigits start
            (Int.lt_of_not_ge positive) isInside, ?_⟩
        have someFraction :
            (first :: others).drop point.toNat ≠ [] := by
          simpa using isInside
        simp only [Numeral.text, Numeral.fractionText,
          if_neg someFraction, Numeral.exponentText, List.append_nil]
  · refine
      ⟨_, Numeral.standsFor_scientific areDigits notZero point, ?_⟩
    cases others <;>
      simp [scientific, Numeral.text, Numeral.fractionText,
        Numeral.exponentText]

/-- In structured data the significant digits of a number are written as a numeral. -/
theorem exists_numeral
    (number : Decimal) :
    ∃ numeral : Numeral,
      numeral.StandsFor number.significantDigits number.pointPlace ∧
        number.write Layout.data =
          numeral.signedText number.negative := by
  by_cases zero : number.significand = 0
  · have point : number.pointPlace = 1 := if_pos zero
    have significant : number.significantDigits = ['0'] :=
      if_pos zero
    rw [significant, point]
    refine ⟨_, Numeral.standsFor_zero, ?_⟩
    simp only [write, point, significant]
    rfl
  · obtain ⟨first, others, isSignificant, notZero⟩ :=
      exists_significantDigits_eq_cons zero
    have areDigits :
        ∀ digit ∈ first :: others, digit.isDigit = true := by
      intro digit member
      rw [← isSignificant] at member
      exact isDigit_of_mem_significantDigits member
    obtain ⟨numeral, standsFor, written⟩ :=
      exists_numeral_of_significant areDigits notZero
        number.pointPlace
    rw [isSignificant]
    refine ⟨numeral, standsFor, ?_⟩
    simp only [write, isSignificant, written, Numeral.signedText]

section Written

variable
    {number : Decimal}
    {numeral : Numeral}
    (standsFor :
      numeral.StandsFor number.significantDigits number.pointPlace)

include standsFor

/-- The numeral of a number has its value. -/
theorem toBinary64_value_of_standsFor :
    (numeral.value number.negative).toBinary64 =
      number.toBinary64 := by
  rw [standsFor.toBinary64_value]
  by_cases zero : number.significand = 0
  · have significant : number.significantDigits = ['0'] :=
      if_pos zero
    have isZero : number.toBinary64 = .finite number.negative 0 :=
      if_pos zero
    rw [isZero, significant]
    rfl
  · rw [pointPlace_eq zero]
    have sameValue :=
      toBinary64_mul_ten_pow number.negative
        (natOfDigits number.significantDigits)
        number.trimmedDigits.2 number.exponent
    rw [natOfDigits_significantDigits zero] at sameValue
    rw [sameValue]
    congr 2
    omega

end Written

end Decimal

end FollowOn

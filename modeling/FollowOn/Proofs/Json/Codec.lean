import FollowOn.Json.Codec
import FollowOn.Proofs.Json.Number
import FollowOn.Proofs.Json.StringBody
import Mathlib.Data.List.Forall2

namespace FollowOn.Json

/-!
# Written values tell themselves apart

A codec determines its values up to a relation if values are written alike
exactly when they are related. The text of a value may be followed by another
one, and where it ends has to be told from the text alone. Strings, integers
and numbers are determined, and so are lists of what is determined.
-/

/-- Values are related exactly if they are written alike, whatever follows them. -/
structure Codec.Determines
    (codec : Codec α)
    (related : α → α → Prop) : Prop where
  write_eq :
    ∀ ⦃first second : α⦄,
      related first second → codec.write first = codec.write second
  write_append_inj :
    ∀ ⦃first second : α⦄ ⦃firstRest secondRest : List Char⦄,
      EndsValue firstRest →
      EndsValue secondRest →
      codec.write first ++ firstRest =
        codec.write second ++ secondRest →
      related first second ∧ firstRest = secondRest

/-- Values have the same text exactly if they are related. -/
theorem Codec.Determines.encode_eq_iff
    {codec : Codec α}
    {related : α → α → Prop}
    (determines : codec.Determines related)
    {first second : α} :
    codec.encode first = codec.encode second ↔
      related first second := by
  constructor
  · intro same
    have sameWritten :
        codec.write first ++ [] = codec.write second ++ [] :=
      congrArg (· ++ []) (String.ofList_injective same)
    have endsNothing : EndsValue [] := trivial
    exact
      (determines.write_append_inj endsNothing endsNothing
        sameWritten).1
  · intro areRelated
    exact congrArg String.ofList (determines.write_eq areRelated)

/-- A written string is read back, so it determines its text. -/
theorem writeString_append_inj
    {first second : String}
    {firstRest secondRest : List Char}
    (same :
      writeString first ++ firstRest =
        writeString second ++ secondRest) :
    first = second ∧ firstRest = secondRest := by
  simp only [writeString, List.cons_append, List.append_assoc,
    List.nil_append, List.cons.injEq, true_and] at same
  have read := congrArg readStringBody same
  rw [readStringBody_append, readStringBody_append] at read
  injection read with sameResult
  injection sameResult with sameText sameRest
  exact ⟨sameText, sameRest⟩

/-- The sign and the digits of a written integer can be taken off again. -/
theorem splitSign_writeInteger_append
    {value : Int}
    {rest : List Char}
    (ends : EndsValue rest) :
    (Decimal.splitSign (writeInteger value ++ rest)).1 =
        decide (value < 0) ∧
      (Decimal.splitSign
          (writeInteger value ++ rest)).2.span Char.isDigit =
        (Decimal.digits value.natAbs, rest) := by
  have areDigits :
      ∀ digit ∈ Decimal.digits value.natAbs, digit.isDigit = true :=
    fun _ member => Decimal.isDigit_of_mem_digits member
  have spanned :=
    span_append_of_stopsAt areDigits (ends.stopsAt ⟨rfl, rfl, rfl⟩)
  simp only [writeInteger]
  split
  · rename_i negative
    rw [List.cons_append, Decimal.splitSign]
    exact ⟨(decide_eq_true negative).symm, spanned⟩
  · rename_i notNegative
    obtain ⟨first, others, isDigits⟩ :=
      List.exists_cons_of_ne_nil
        (Decimal.digits_ne_nil value.natAbs)
    have isDigit := areDigits first (by rw [isDigits]; simp)
    have noSign :
        Decimal.splitSign (Decimal.digits value.natAbs ++ rest) =
          (false, Decimal.digits value.natAbs ++ rest) := by
      have noMinus : first ≠ '-' := by
        rintro rfl
        cases isDigit
      have noPlus : first ≠ '+' := by
        rintro rfl
        cases isDigit
      rw [isDigits, List.cons_append]
      simp [Decimal.splitSign, noMinus, noPlus]
    rw [noSign]
    exact ⟨(decide_eq_false notNegative).symm, spanned⟩

/-- The text of an integer determines it and what follows. -/
theorem writeInteger_append_inj
    {first second : Int}
    {firstRest secondRest : List Char}
    (ends : EndsValue firstRest)
    (secondEnds : EndsValue secondRest)
    (same :
      writeInteger first ++ firstRest =
        writeInteger second ++ secondRest) :
    first = second ∧ firstRest = secondRest := by
  obtain ⟨sign, digits⟩ := splitSign_writeInteger_append ends
  obtain ⟨secondSign, secondDigits⟩ :=
    splitSign_writeInteger_append secondEnds
  rw [same] at sign digits
  rw [sign] at secondSign
  rw [digits] at secondDigits
  injection secondDigits with sameDigits sameRest
  have sameMagnitude := congrArg Decimal.natOfDigits sameDigits
  rw [Decimal.natOfDigits_digits, Decimal.natOfDigits_digits]
    at sameMagnitude
  have sameSign := decide_eq_decide.mp secondSign
  exact ⟨by omega, sameRest⟩

namespace Codec

/-- The text of an amount determines it. -/
theorem determines_amount :
    Codec.amount.Determines (· = ·) where
  write_eq _ _ same := congrArg _ same
  write_append_inj _ _ _ _ ends secondEnds same :=
    writeInteger_append_inj ends secondEnds same

/-- The text of a count determines it. -/
theorem determines_smallCount :
    Codec.smallCount.Determines (· = ·) where
  write_eq _ _ same := congrArg _ same
  write_append_inj := by
    intro first second firstRest secondRest ends secondEnds same
    have sameInteger :
        writeInteger (first : Int) ++ firstRest =
          writeInteger (second : Int) ++ secondRest := same
    obtain ⟨sameValue, sameRest⟩ :=
      writeInteger_append_inj ends secondEnds sameInteger
    exact ⟨Int.ofNat.inj sameValue, sameRest⟩

/-- The text of a string determines it, escapes included. -/
theorem determines_string :
    Codec.string.Determines (· = ·) where
  write_eq _ _ same := congrArg _ same
  write_append_inj _ _ _ _ _ _ same := writeString_append_inj same

end Codec

section Joined

variable
    {closing : Char}

/-- What follows the first of some items. -/
def afterFirst : List (List Char) → List Char
  | [] => []
  | items => ',' :: joined items

/-- After the first item each one has its comma. -/
theorem joined_cons
    (first : List Char)
    (rest : List (List Char)) :
    joined (first :: rest) = first ++ afterFirst rest := by
  cases rest with
  | nil => simp [joined, afterFirst]
  | cons second rest => rfl

/-- A further item is written behind its comma. -/
theorem afterFirst_cons
    (first : List Char)
    (rest : List (List Char)) :
    afterFirst (first :: rest) =
      ',' :: (first ++ afterFirst rest) := by
  rw [← joined_cons]
  rfl

/-- What follows an item ends its value. -/
theorem endsValue_afterFirst
    (isClosing : closing = '}' ∨ closing = ']')
    (items : List (List Char))
    (rest : List Char) :
    EndsValue (afterFirst items ++ closing :: rest) := by
  cases items with
  | nil => exact Or.inr isClosing
  | cons first items => exact Or.inl rfl

/-- If what follows the first items is the same, the other items are. -/
theorem joined_append_of_afterFirst
    (isClosing : closing = '}' ∨ closing = ']')
    {items otherItems : List (List Char)}
    {rest otherRest : List Char}
    (same :
      afterFirst items ++ closing :: rest =
        afterFirst otherItems ++ closing :: otherRest) :
    joined items ++ closing :: rest =
      joined otherItems ++ closing :: otherRest := by
  have noComma : closing ≠ ',' := by
    rcases isClosing with isBrace | isBracket
    · rw [isBrace]
      decide
    · rw [isBracket]
      decide
  cases items with
  | nil =>
      cases otherItems with
      | nil => exact same
      | cons first others =>
          injection same with isComma
          exact (noComma isComma).elim
  | cons first others =>
      cases otherItems with
      | nil =>
          injection same with isComma
          exact (noComma isComma.symm).elim
      | cons otherFirst otherOthers =>
          injection same

end Joined

section Items

variable
    {codec : Codec α}
    {related : α → α → Prop}
    (determines : codec.Determines related)

include determines

/-- Items that are related are written alike. -/
theorem map_write_eq_of_forall₂
    {values others : List α}
    (areRelated : List.Forall₂ related values others) :
    values.map codec.write = others.map codec.write := by
  induction areRelated with
  | nil => rfl
  | cons firstRelated _ inductionHypothesis =>
      rw [List.map_cons, List.map_cons,
        determines.write_eq firstRelated, inductionHypothesis]

variable
    (opens :
      ∀ value, ∃ first rest,
        codec.write value = first :: rest ∧ first ≠ ']')

include opens

/-- If no item starts like the end of a list, the items up to that end are determined. -/
theorem joined_write_append_inj
    {values others : List α}
    {rest otherRest : List Char}
    (same :
      joined (values.map codec.write) ++ ']' :: rest =
        joined (others.map codec.write) ++ ']' :: otherRest) :
    List.Forall₂ related values others ∧ rest = otherRest := by
  have notEnd :
      ∀ (value : α) (tail rest : List Char),
        codec.write value ++ tail ≠ ']' :: rest := by
    intro value tail rest isEnd
    obtain ⟨first, others, isWritten, noBracket⟩ := opens value
    rw [isWritten] at isEnd
    injection isEnd with isBracket
    exact noBracket isBracket
  induction values generalizing others with
  | nil =>
      cases others with
      | nil =>
          injection same with _ sameRest
          exact ⟨.nil, sameRest⟩
      | cons other others =>
          rw [List.map_cons, joined_cons, List.append_assoc] at same
          exact (notEnd other _ _ same.symm).elim
  | cons value values inductionHypothesis =>
      cases others with
      | nil =>
          rw [List.map_cons, joined_cons, List.append_assoc] at same
          exact (notEnd value _ _ same).elim
      | cons other others =>
          rw [List.map_cons, List.map_cons, joined_cons, joined_cons,
            List.append_assoc, List.append_assoc] at same
          obtain ⟨firstRelated, sameAfter⟩ :=
            determines.write_append_inj
              (endsValue_afterFirst (Or.inr rfl) _ _)
              (endsValue_afterFirst (Or.inr rfl) _ _) same
          obtain ⟨othersRelated, sameRest⟩ :=
            inductionHypothesis
              (joined_append_of_afterFirst (Or.inr rfl) sameAfter)
          exact ⟨.cons firstRelated othersRelated, sameRest⟩

/-- A list is determined as its items are. -/
theorem Codec.Determines.list :
    codec.list.Determines (List.Forall₂ related) where
  write_eq values others areRelated := by
    simp only [Codec.list,
      map_write_eq_of_forall₂ determines areRelated]
  write_append_inj values others rest otherRest _ _ same := by
    simp only [Codec.list, List.cons_append, List.append_assoc,
      List.nil_append, List.cons.injEq, true_and] at same
    exact joined_write_append_inj determines opens same

end Items

end FollowOn.Json

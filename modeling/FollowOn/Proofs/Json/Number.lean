import FollowOn.Json.Number
import FollowOn.Proofs.Decimal.Shortest
import FollowOn.Proofs.Json.Scaling

namespace FollowOn.Json

/-!
# Reading numbers back

A reader of numbers takes a numeral off the front of a text, up to a character
that cannot go on with it, and leaves the rest. So the text of a number that 64
bits can hold determines the number wherever the text of a value may end, and
if it is short, it is read back as that number.
-/

/-- What may follow a value: nothing, or a mark that separates or closes. -/
def EndsValue : List Char → Prop
  | [] => True
  | mark :: _ => mark = ',' ∨ mark = '}' ∨ mark = ']'

/-- A text that no character of a kind starts. -/
def StopsAt
    (kind : Char → Bool)
    (text : List Char) : Prop :=
  ∀ first rest, text = first :: rest → kind first = false

/-- A character of another kind stops a run. -/
theorem StopsAt.cons
    {kind : Char → Bool}
    {first : Char}
    (otherKind : kind first = false)
    (rest : List Char) :
    StopsAt kind (first :: rest) := by
  intro _ _ same
  injection same with sameFirst
  rw [← sameFirst]
  exact otherKind

/-- What stops a wide kind stops a narrow one. -/
theorem StopsAt.of_imp
    {kind wider : Char → Bool}
    {text : List Char}
    (stops : StopsAt wider text)
    (within :
      ∀ character, kind character = true → wider character = true) :
    StopsAt kind text := by
  intro first rest isText
  have otherKind := stops first rest isText
  cases isKind : kind first with
  | false => rfl
  | true =>
      rw [within first isKind] at otherKind
      cases otherKind

/-- The end of a value stops every run that has no such mark in it. -/
theorem EndsValue.stopsAt
    {text : List Char}
    (ends : EndsValue text)
    {kind : Char → Bool}
    (marks :
      kind ',' = false ∧ kind '}' = false ∧ kind ']' = false) :
    StopsAt kind text := by
  intro first rest isText
  rw [isText] at ends
  rcases ends with comma | brace | bracket
  · rw [comma]
    exact marks.1
  · rw [brace]
    exact marks.2.1
  · rw [bracket]
    exact marks.2.2

/-- A run is taken up to where it stops. -/
theorem span_append_of_stopsAt
    {kind : Char → Bool}
    {front rest : List Char}
    (areKind : ∀ character ∈ front, kind character = true)
    (stops : StopsAt kind rest) :
    (front ++ rest).span kind = (front, rest) := by
  rw [List.span_eq_takeWhile_dropWhile,
    List.takeWhile_append_of_pos areKind,
    List.dropWhile_append_of_pos areKind]
  cases rest with
  | nil =>
      simp
  | cons first rest =>
      have otherKind := stops first rest rfl
      simp [otherKind]

section ReadNumeral

variable
    {rest : List Char}

/-- Digits before the point are read up to the first character that is none. -/
theorem readWhole_append
    {whole : List Char}
    (areDigits : ∀ digit ∈ whole, digit.isDigit = true)
    (start :
      whole = ['0'] ∨
        ∃ first others, whole = first :: others ∧ first ≠ '0')
    (stops : StopsAt Char.isDigit rest) :
    readWhole (whole ++ rest) = .ok (whole, rest) := by
  rcases start with isZero | ⟨first, others, isWhole, notZero⟩
  · rw [isZero]
    cases rest with
    | nil =>
        rfl
    | cons next rest =>
        have noDigit := stops next rest rfl
        simp [readWhole, noDigit]
  · have spanned := span_append_of_stopsAt areDigits stops
    have isDigit := areDigits first (by rw [isWhole]; simp)
    rw [isWhole, List.cons_append] at spanned ⊢
    simp [readWhole, isDigit, spanned,
      -List.span_eq_takeWhile_dropWhile]

/-- A fraction is read with its point, and no fraction as none. -/
theorem readFraction_append
    {fraction : List Char}
    (areDigits : ∀ digit ∈ fraction, digit.isDigit = true)
    (stops : StopsAt (fun next => next.isDigit || next == '.') rest) :
    readFraction (Decimal.Numeral.fractionText fraction ++ rest) =
      .ok (if fraction = [] then none else some fraction, rest) := by
  cases fraction with
  | nil =>
      cases rest with
      | nil =>
          rfl
      | cons next rest =>
          have noPoint := stops next rest rfl
          simp only [Bool.or_eq_false_iff, beq_eq_false_iff_ne]
            at noPoint
          simp [Decimal.Numeral.fractionText, readFraction, noPoint.2]
  | cons first others =>
      have noDigit : StopsAt Char.isDigit rest :=
        stops.of_imp fun _ isDigit => by simp [isDigit]
      have spanned := span_append_of_stopsAt areDigits noDigit
      rw [List.cons_append] at spanned
      simp [Decimal.Numeral.fractionText, readFraction, spanned,
        -List.span_eq_takeWhile_dropWhile]

/-- An exponent is read with its mark and sign, and no exponent as none. -/
theorem readExponent_append
    (exponent : Option Int)
    (stops :
      StopsAt
        (fun next => next.isDigit || next == 'e' || next == 'E')
        rest) :
    readExponent (Decimal.Numeral.exponentText exponent ++ rest) =
      .ok (exponent, rest) := by
  cases exponent with
  | none =>
      cases rest with
      | nil =>
          rfl
      | cons next rest =>
          have noMark := stops next rest rfl
          simp only [Bool.or_eq_false_iff, beq_eq_false_iff_ne]
            at noMark
          simp [Decimal.Numeral.exponentText, readExponent,
            noMark.1.2, noMark.2]
  | some exponent =>
      have noDigit : StopsAt Char.isDigit rest :=
        stops.of_imp fun _ isDigit => by simp [isDigit]
      have areDigits :
          ∀ digit ∈ Decimal.digits exponent.natAbs,
            digit.isDigit = true :=
        fun _ member => Decimal.isDigit_of_mem_digits member
      have spanned := span_append_of_stopsAt areDigits noDigit
      have value := Decimal.natOfDigits_digits exponent.natAbs
      obtain ⟨first, others, isDigits⟩ :=
        List.exists_cons_of_ne_nil
          (Decimal.digits_ne_nil exponent.natAbs)
      rw [isDigits] at spanned value
      rw [List.cons_append] at spanned
      simp only [Decimal.Numeral.exponentText, isDigits,
        List.cons_append, readExponent, true_or, if_true]
      by_cases negative : exponent < 0
      · simp only [if_pos negative, Decimal.splitSign, spanned, value,
          Binary64.signed, if_true]
        congr 3
        omega
      · simp only [if_neg negative, Decimal.splitSign, spanned, value,
          Binary64.signed]
        simp
        omega

end ReadNumeral

section Stops

variable
    {kind : Char → Bool}
    {rest : List Char}

/-- The mark of an exponent stops the digits before it. -/
theorem stopsAt_exponentText
    (otherMark : kind 'e' = false)
    (stops : StopsAt kind rest)
    (exponent : Option Int) :
    StopsAt kind
      (Decimal.Numeral.exponentText exponent ++ rest) := by
  cases exponent with
  | none => exact stops
  | some exponent => exact .cons otherMark _

/-- The point stops the digits before it. -/
theorem stopsAt_fractionText
    (otherMark : kind '.' = false)
    (stops : StopsAt kind rest)
    (fraction : List Char) :
    StopsAt kind
      (Decimal.Numeral.fractionText fraction ++ rest) := by
  unfold Decimal.Numeral.fractionText
  split
  · exact stops
  · exact .cons otherMark _

end Stops

section Numeral

variable
    {numeral : Decimal.Numeral}
    (wellFormed : numeral.WellFormed)

include wellFormed

/-- The parts of a numeral are read one after the other. -/
theorem readParts_append
    {rest : List Char}
    (ends : EndsValue rest) :
    ∃ afterWhole afterFraction,
      readWhole (numeral.text ++ rest) =
          .ok (numeral.whole, afterWhole) ∧
        readFraction afterWhole =
            .ok
              (if numeral.fraction = [] then none
                else some numeral.fraction,
                afterFraction) ∧
          readExponent afterFraction = .ok (numeral.exponent, rest) := by
  have readsExponent :=
    readExponent_append numeral.exponent
      (ends.stopsAt ⟨rfl, rfl, rfl⟩)
  have readsFraction :=
    readFraction_append wellFormed.fraction_digits
      (stopsAt_exponentText rfl (ends.stopsAt ⟨rfl, rfl, rfl⟩)
        numeral.exponent)
  have readsWhole :=
    readWhole_append wellFormed.whole_digits wellFormed.whole_start
      (stopsAt_fractionText rfl
        (stopsAt_exponentText rfl (ends.stopsAt ⟨rfl, rfl, rfl⟩)
          numeral.exponent)
        numeral.fraction)
  rw [Decimal.Numeral.text, List.append_assoc, List.append_assoc]
  exact ⟨_, _, readsWhole, readsFraction, readsExponent⟩

/-- The parts of a short numeral that is no integer are put together to its value. -/
theorem assemble_eq_ok
    (short : numeral.IsShort)
    {negative sign : Bool}
    {units : Nat}
    (value :
      (numeral.value negative).toBinary64 = .finite sign units) :
    assemble negative numeral.whole
        (if numeral.fraction = [] then none
          else some numeral.fraction)
        numeral.exponent =
      .ok (.floating (.finite sign units)) := by
  have notExact :
      ((if numeral.fraction = [] then none
          else some numeral.fraction).isNone &&
        numeral.exponent.isNone) = false := by
    rcases wellFormed.not_integer with someFraction | someExponent
    · simp [someFraction]
    · simp [Option.isNone_eq_false_iff.mpr someExponent]
  have sameFraction :
      (if numeral.fraction = [] then none
        else some numeral.fraction).getD [] = numeral.fraction := by
    split <;> simp_all
  have fits :
      Decimal.natOfDigits (numeral.whole ++ numeral.fraction) < 2 ^ 64 :=
    Nat.lt_trans short.significand_lt (by decide)
  obtain ⟨front, all⟩ := takeUp_parts fits
  have place :
      ((0 : Nat) : Int) + ((0 : Nat) : Int) - numeral.fraction.length +
          numeral.exponent.getD 0 =
        numeral.exponent.getD 0 - numeral.fraction.length := by
    omega
  have nearest :=
    floating?_eq short.significand_lt short.exponent_lt
      (by rw [place]; exact ⟨short.place_ge, short.place_le⟩) negative
  rw [place] at nearest
  rw [Decimal.Numeral.value, Decimal.ofDigits] at value
  unfold assemble
  simp only [notExact, sameFraction, front, all, nearest, value]

/-- A short numeral is read as the number nearest to its value. -/
theorem readUnsigned_append
    (short : numeral.IsShort)
    {rest : List Char}
    (ends : EndsValue rest)
    {negative sign : Bool}
    {units : Nat}
    (value :
      (numeral.value negative).toBinary64 = .finite sign units) :
    readUnsigned negative (numeral.text ++ rest) =
      .ok (.floating (.finite sign units), rest) := by
  obtain ⟨_, _, readsWhole, readsFraction, readsExponent⟩ :=
    readParts_append wellFormed ends
  simp only [readUnsigned, readsWhole, readsFraction, readsExponent,
    assemble_eq_ok wellFormed short value, bind, Except.bind]

/-- The text of a numeral determines the numeral and what follows it. -/
theorem numeral_text_append_inj
    {other : Decimal.Numeral}
    (otherWellFormed : other.WellFormed)
    {rest otherRest : List Char}
    (ends : EndsValue rest)
    (otherEnds : EndsValue otherRest)
    (same : numeral.text ++ rest = other.text ++ otherRest) :
    numeral = other ∧ rest = otherRest := by
  obtain ⟨afterWhole, afterFraction, readsWhole, readsFraction,
      readsExponent⟩ :=
    readParts_append wellFormed ends
  obtain ⟨_, _, otherReadsWhole, otherReadsFraction,
      otherReadsExponent⟩ :=
    readParts_append otherWellFormed otherEnds
  rw [same, otherReadsWhole] at readsWhole
  injection readsWhole with sameParts
  injection sameParts with sameWhole sameAfterWhole
  rw [← sameAfterWhole, otherReadsFraction] at readsFraction
  injection readsFraction with sameParts
  injection sameParts with sameFraction sameAfterFraction
  rw [← sameAfterFraction, otherReadsExponent] at readsExponent
  injection readsExponent with sameParts
  injection sameParts with sameExponent sameRest
  have sameDigits : other.fraction = numeral.fraction := by
    by_cases none : numeral.fraction = [] <;>
      by_cases otherNone : other.fraction = [] <;>
      simp_all
  cases numeral
  cases other
  exact ⟨by simp_all, sameRest.symm⟩

end Numeral

/-- A numeral starts with a digit. -/
theorem exists_text_eq_cons
    {numeral : Decimal.Numeral}
    (wellFormed : numeral.WellFormed) :
    ∃ first others,
      numeral.text = first :: others ∧ first.isDigit = true := by
  have start :
      ∃ first others, numeral.whole = first :: others := by
    rcases wellFormed.whole_start with
      isZero | ⟨first, others, isWhole, -⟩
    · exact ⟨'0', [], isZero⟩
    · exact ⟨first, others, isWhole⟩
  obtain ⟨first, others, isWhole⟩ := start
  have isDigit :=
    wellFormed.whole_digits first (by rw [isWhole]; simp)
  rw [Decimal.Numeral.text, isWhole]
  exact ⟨first, _, rfl, isDigit⟩

/-- A number that starts with a digit has no sign. -/
theorem readNumber_of_isDigit
    {first : Char}
    (isDigit : first.isDigit = true)
    (rest : List Char) :
    readNumber (first :: rest) = readUnsigned false (first :: rest) := by
  have noSign : first ≠ '-' := by
    intro isMinus
    rw [isMinus] at isDigit
    cases isDigit
  simp [readNumber, noSign]

section Signed

variable
    {numeral : Decimal.Numeral}
    (wellFormed : numeral.WellFormed)
    {negative : Bool}
    {rest : List Char}

include wellFormed

/-- A short numeral with a sign is read as the number nearest to its value. -/
theorem readNumber_signedText
    (short : numeral.IsShort)
    (ends : EndsValue rest)
    {sign : Bool}
    {units : Nat}
    (value :
      (numeral.value negative).toBinary64 = .finite sign units) :
    readNumber (numeral.signedText negative ++ rest) =
      .ok (.floating (.finite sign units), rest) := by
  have read := readUnsigned_append wellFormed short ends value
  cases negative with
  | true => exact read
  | false =>
      obtain ⟨first, others, isText, isDigit⟩ :=
        exists_text_eq_cons wellFormed
      change readNumber (numeral.text ++ rest) = _
      rw [isText, List.cons_append] at read ⊢
      rw [readNumber_of_isDigit isDigit, read]

/-- The text of a numeral determines its sign as well. -/
theorem signedText_append_inj
    {other : Decimal.Numeral}
    (otherWellFormed : other.WellFormed)
    {otherNegative : Bool}
    {otherRest : List Char}
    (ends : EndsValue rest)
    (otherEnds : EndsValue otherRest)
    (same :
      numeral.signedText negative ++ rest =
        other.signedText otherNegative ++ otherRest) :
    negative = otherNegative ∧ numeral = other ∧ rest = otherRest := by
  obtain ⟨first, _, isText, isDigit⟩ := exists_text_eq_cons wellFormed
  obtain ⟨otherFirst, _, isOtherText, otherIsDigit⟩ :=
    exists_text_eq_cons otherWellFormed
  cases negative <;> cases otherNegative
  case false.false =>
    exact ⟨rfl,
      numeral_text_append_inj wellFormed otherWellFormed ends
        otherEnds same⟩
  case true.true =>
    exact ⟨rfl,
      numeral_text_append_inj wellFormed otherWellFormed ends
        otherEnds (List.cons.inj same).2⟩
  -- A minus is no digit.
  case false.true =>
    change numeral.text ++ rest = '-' :: (other.text ++ otherRest)
      at same
    rw [isText] at same
    rw [(List.cons.inj same).1] at isDigit
    cases isDigit
  case true.false =>
    change '-' :: (numeral.text ++ rest) = other.text ++ otherRest
      at same
    rw [isOtherText] at same
    rw [← (List.cons.inj same).1] at otherIsDigit
    cases otherIsDigit

/-- No numeral is the name of a special number. -/
theorem signedText_append_ne_special
    {number : Binary64}
    (special : ∀ sign units, number ≠ .finite sign units)
    (otherRest : List Char) :
    numeral.signedText negative ++ rest ≠
      (number.text Decimal.Layout.data).toList ++ otherRest := by
  obtain ⟨first, others, isText, isDigit⟩ :=
    exists_text_eq_cons wellFormed
  intro same
  rw [Decimal.Numeral.signedText, isText] at same
  rcases number with _ | (_ | _) | _ <;> cases negative <;>
    simp_all [Binary64.text]

end Signed

section Finite

variable
    {negative : Bool}
    {units : Nat}
    (representable : (Binary64.finite negative units).Representable)

include representable

/-- A finite number that can be held is written as a numeral of its value. -/
theorem exists_numeral_of_finite :
    ∃ sign, ∃ numeral : Decimal.Numeral,
      numeral.WellFormed ∧
        ((Binary64.finite negative units).text
            Decimal.Layout.data).toList =
          numeral.signedText sign ∧
        (numeral.value sign).toBinary64 = .finite negative units ∧
        ((Decimal.shortest .even negative units).IsShort →
          numeral.IsShort) := by
  obtain ⟨numeral, standsFor, written⟩ :=
    Decimal.exists_numeral (Decimal.shortest .even negative units)
  have value := Decimal.toBinary64_value_of_standsFor standsFor
  rw [Decimal.toBinary64_shortest representable] at value
  refine
    ⟨_, numeral, standsFor.wellFormed, ?_, value,
      fun short => short.numeral standsFor⟩
  rw [Binary64.text, String.toList_ofList]
  exact written

/-- The text of a finite number whose shortest form is short is read back as it. -/
theorem readNumber_text
    (short : (Decimal.shortest .even negative units).IsShort)
    {rest : List Char}
    (ends : EndsValue rest) :
    readNumber
        (((Binary64.finite negative units).text
            Decimal.Layout.data).toList ++ rest) =
      .ok (.floating (.finite negative units), rest) := by
  obtain ⟨sign, numeral, wellFormed, written, value, shortNumeral⟩ :=
    exists_numeral_of_finite representable
  rw [written]
  exact readNumber_signedText wellFormed (shortNumeral short) ends value

end Finite

/-- A number is finite, or it is special and has a name. -/
theorem finite_or_special
    (number : Binary64) :
    (∃ negative units, number = .finite negative units) ∨
      ∀ negative units, number ≠ .finite negative units := by
  cases number <;> simp

/-- No name of a special number starts the name of another one. -/
theorem special_append_inj
    {number other : Binary64}
    (special : ∀ negative units, number ≠ .finite negative units)
    (otherSpecial :
      ∀ negative units, other ≠ .finite negative units)
    {rest otherRest : List Char}
    (same :
      (number.text Decimal.Layout.data).toList ++ rest =
        (other.text Decimal.Layout.data).toList ++ otherRest) :
    number = other ∧ rest = otherRest := by
  rcases number with _ | (_ | _) | _ <;>
    rcases other with _ | (_ | _) | _ <;>
    simp_all [Binary64.text]

/-- The text of a finite number starts no name of a special one. -/
theorem text_append_ne_special
    {negative : Bool}
    {units : Nat}
    (representable : (Binary64.finite negative units).Representable)
    {other : Binary64}
    (special : ∀ sign units, other ≠ .finite sign units)
    (rest otherRest : List Char) :
    ((Binary64.finite negative units).text
          Decimal.Layout.data).toList ++ rest ≠
      (other.text Decimal.Layout.data).toList ++ otherRest := by
  obtain ⟨_, _, wellFormed, written, -, -⟩ :=
    exists_numeral_of_finite representable
  rw [written]
  exact signedText_append_ne_special wellFormed special otherRest

/-- The text of a finite number determines the number and what follows it. -/
theorem finite_append_inj
    {negative otherNegative : Bool}
    {units otherUnits : Nat}
    (representable : (Binary64.finite negative units).Representable)
    (otherRepresentable :
      (Binary64.finite otherNegative otherUnits).Representable)
    {rest otherRest : List Char}
    (ends : EndsValue rest)
    (otherEnds : EndsValue otherRest)
    (same :
      ((Binary64.finite negative units).text
            Decimal.Layout.data).toList ++ rest =
        ((Binary64.finite otherNegative otherUnits).text
            Decimal.Layout.data).toList ++ otherRest) :
    Binary64.finite negative units =
        .finite otherNegative otherUnits ∧
      rest = otherRest := by
  obtain ⟨_, _, wellFormed, written, value, -⟩ :=
    exists_numeral_of_finite representable
  obtain ⟨_, _, otherWellFormed, otherWritten, otherValue, -⟩ :=
    exists_numeral_of_finite otherRepresentable
  rw [written, otherWritten] at same
  obtain ⟨sameSign, sameNumeral, sameRest⟩ :=
    signedText_append_inj wellFormed otherWellFormed ends otherEnds
      same
  rw [← value, ← otherValue, sameSign, sameNumeral]
  exact ⟨rfl, sameRest⟩

/-- The text of a number determines the number and what follows it. -/
theorem text_append_inj
    {number other : Binary64}
    (representable : number.Representable)
    (otherRepresentable : other.Representable)
    {rest otherRest : List Char}
    (ends : EndsValue rest)
    (otherEnds : EndsValue otherRest)
    (same :
      (number.text Decimal.Layout.data).toList ++ rest =
        (other.text Decimal.Layout.data).toList ++ otherRest) :
    number = other ∧ rest = otherRest := by
  rcases finite_or_special number with
    ⟨_, _, isNumber⟩ | special <;>
    rcases finite_or_special other with
      ⟨_, _, isOther⟩ | otherSpecial
  · subst isNumber isOther
    exact finite_append_inj representable otherRepresentable ends
      otherEnds same
  · subst isNumber
    exact
      (text_append_ne_special representable otherSpecial _ _ same).elim
  · subst isOther
    exact
      (text_append_ne_special otherRepresentable special _ _
        same.symm).elim
  · exact special_append_inj special otherSpecial same

end FollowOn.Json

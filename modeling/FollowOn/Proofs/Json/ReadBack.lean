import FollowOn.Proofs.Json.Codec

namespace FollowOn.Json

/-!
# Written values are read back

A codec reads a value back if it takes exactly what is written of the value off
the front of a text, wherever the value may end there. Integers that fit their
kind, strings, truth values and labels are read back, and so are lists of what
is read back. A codec that reads values back reads them from their whole texts,
so no two of them share a text.
-/

/-- A character that can start a value, but neither a null nor the end of a list. -/
structure OpensValue (first : Char) : Prop where
  not_blank : isBlank first = false
  ne_null : first ≠ 'n'
  ne_bracket : first ≠ ']'

/-- Values that fit are read back from what is written of them, whatever follows. -/
structure Codec.ReadsBack
    (codec : Codec α)
    (fits : α → Prop) : Prop where
  write_eq_cons :
    ∀ ⦃value : α⦄,
      fits value →
      ∃ first rest,
        codec.write value = first :: rest ∧ OpensValue first
  read_write_append :
    ∀ ⦃value : α⦄ ⦃rest : List Char⦄,
      fits value →
      EndsValue rest →
      codec.read (codec.write value ++ rest) = .ok (value, rest)

/-- Values that fit are what their texts hold, so that no two of them share a text. -/
structure Codec.Faithful
    (codec : Codec α)
    (fits : α → Prop) : Prop where
  decode_encode :
    ∀ ⦃value : α⦄,
      fits value → codec.decode (codec.encode value) = .ok value
  encode_inj :
    ∀ ⦃first second : α⦄,
      fits first →
      fits second →
      codec.encode first = codec.encode second →
      first = second

section Laws

variable
    {codec : Codec α}
    {fits : α → Prop}

/-- The whole text of a value is read as the value. -/
theorem Codec.ReadsBack.decode_encode
    (readsBack : codec.ReadsBack fits)
    {value : α}
    (fitting : fits value) :
    codec.decode (codec.encode value) = .ok value := by
  have endsNothing : EndsValue [] := trivial
  have read := readsBack.read_write_append fitting endsNothing
  rw [List.append_nil] at read
  simp only [decode, encode, String.toList_ofList, read]
  rfl

/-- Values that are read back are told apart by their texts. -/
theorem Codec.ReadsBack.faithful
    (readsBack : codec.ReadsBack fits) :
    codec.Faithful fits where
  decode_encode _ fitting := readsBack.decode_encode fitting
  encode_inj first second fitting secondFitting sameText := by
    have read := readsBack.decode_encode fitting
    rw [sameText, readsBack.decode_encode secondFitting] at read
    injection read with same
    exact same.symm

end Laws

/-- No blank stands before the first character of a value. -/
theorem OpensValue.skipBlanks_cons
    {first : Char}
    (opens : OpensValue first)
    (rest : List Char) :
    skipBlanks (first :: rest) = first :: rest :=
  skipBlanks_of_not_isBlank opens.not_blank

/-- A string opens with a quote. -/
theorem opensValue_quote :
    OpensValue '"' :=
  ⟨rfl, by decide, by decide⟩

/-- A list opens with a bracket. -/
theorem opensValue_bracket :
    OpensValue '[' :=
  ⟨rfl, by decide, by decide⟩

/-- A record opens with a brace. -/
theorem opensValue_brace :
    OpensValue '{' :=
  ⟨rfl, by decide, by decide⟩

/-- A comma is no blank. -/
theorem skipBlanks_comma
    (rest : List Char) :
    skipBlanks (',' :: rest) = ',' :: rest :=
  skipBlanks_of_not_isBlank rfl

section Numbers

/-- A number starts with its sign or with a digit. -/
def StartsNumber (text : List Char) : Prop :=
  ∃ first rest,
    text = first :: rest ∧ (first = '-' ∨ first.isDigit = true)

/-- A number opens with a minus or a digit. -/
theorem opensValue_of_startsNumber
    {first : Char}
    (starts : first = '-' ∨ first.isDigit = true) :
    OpensValue first := by
  rcases starts with isMinus | isDigit
  · rw [isMinus]
    exact ⟨rfl, by decide, by decide⟩
  · have notBlank : isBlank first = false := by
      simp only [isBlank, Bool.or_eq_false_iff, beq_eq_false_iff_ne]
      refine ⟨⟨⟨?_, ?_⟩, ?_⟩, ?_⟩ <;> rintro rfl <;> cases isDigit
    refine ⟨notBlank, ?_, ?_⟩ <;> rintro rfl <;> cases isDigit

/-- A text that starts a number starts a value. -/
theorem StartsNumber.exists_opensValue
    {text : List Char}
    (starts : StartsNumber text) :
    ∃ first rest, text = first :: rest ∧ OpensValue first := by
  obtain ⟨first, rest, isText, isStart⟩ := starts
  exact ⟨first, rest, isText, opensValue_of_startsNumber isStart⟩

/-- A number that is read and accepted is read as what it is accepted for. -/
theorem readNumberAs_append
    {expected : Expected}
    {accept : Number → Except Fault α}
    {text rest : List Char}
    {number : Number}
    {value : α}
    (starts : StartsNumber text)
    (read : readNumber (text ++ rest) = .ok (number, rest))
    (accepted : accept number = .ok value) :
    readNumberAs expected accept (text ++ rest) = .ok (value, rest) := by
  obtain ⟨first, others, isText, isStart⟩ := starts
  have opens := opensValue_of_startsNumber isStart
  rw [isText, List.cons_append] at read ⊢
  simp only [readNumberAs, opens.skipBlanks_cons, if_pos isStart, read,
    bind, Except.bind, accepted]

/-- The digits of an integer that 64 bits hold are read as the integer. -/
theorem readUnsigned_digits
    {negative : Bool}
    {magnitude : Nat}
    {value : Int}
    (holds : integer? negative magnitude = some value)
    {rest : List Char}
    (ends : EndsValue rest) :
    readUnsigned negative (Decimal.digits magnitude ++ rest) =
      .ok (.integer value, rest) := by
  have digitsEnd : StopsAt Char.isDigit rest :=
    ends.stopsAt ⟨rfl, rfl, rfl⟩
  have afterWhole :=
    readWhole_append
      (fun _ member => Decimal.isDigit_of_mem_digits member)
      (Decimal.digits_start magnitude) digitsEnd
  have noPlaces :
      ∀ digit ∈ ([] : List Char), digit.isDigit = true :=
    fun _ member => (List.not_mem_nil member).elim
  have afterFraction : readFraction rest = .ok (none, rest) :=
    readFraction_append noPlaces (ends.stopsAt ⟨rfl, rfl, rfl⟩)
  have afterExponent : readExponent rest = .ok (none, rest) :=
    readExponent_append none (ends.stopsAt ⟨rfl, rfl, rfl⟩)
  simp only [readUnsigned, afterWhole, afterFraction, afterExponent,
    bind, Except.bind, assemble, Decimal.natOfDigits_digits, holds,
    Option.isNone_none, Bool.and_self]

/-- The text of an integer starts like a number. -/
theorem startsNumber_writeInteger
    (value : Int) :
    StartsNumber (writeInteger value) := by
  unfold writeInteger
  split
  · exact ⟨'-', _, rfl, Or.inl rfl⟩
  · obtain ⟨first, rest, isDigits, isDigit⟩ :=
      Decimal.exists_isDigit_cons value.natAbs
    exact ⟨first, rest, isDigits, Or.inr isDigit⟩

/-- An integer that 64 bits hold, with a sign or without one, is read back. -/
theorem readNumber_writeInteger
    {value : Int}
    (inWord : -2 ^ 63 ≤ value ∧ value < 2 ^ 64)
    {rest : List Char}
    (ends : EndsValue rest) :
    readNumber (writeInteger value ++ rest) =
      .ok (.integer value, rest) := by
  unfold writeInteger
  split
  · have holds : integer? true value.natAbs = some value := by
      rw [integer?, if_pos rfl, if_pos (by omega)]
      congr
      omega
    exact readUnsigned_digits holds ends
  · have holds : integer? false value.natAbs = some value := by
      rw [integer?, if_neg Bool.false_ne_true, if_pos (by omega)]
      congr
      omega
    have read := readUnsigned_digits holds ends
    obtain ⟨first, others, isDigits, isDigit⟩ :=
      Decimal.exists_isDigit_cons value.natAbs
    rw [isDigits, List.cons_append] at read ⊢
    rw [readNumber_of_isDigit isDigit, read]

/-- The text of a finite number starts like one. -/
theorem startsNumber_text
    (negative : Bool)
    (units : Nat) :
    StartsNumber
      ((Binary64.finite negative units).text
        Decimal.Layout.data).toList := by
  obtain ⟨numeral, standsFor, written⟩ :=
    Decimal.exists_numeral
      (Decimal.shortest Decimal.Layout.data.tie negative units)
  rw [Binary64.text, String.toList_ofList, written,
    Decimal.Numeral.signedText]
  split
  · exact ⟨'-', _, rfl, Or.inl rfl⟩
  · obtain ⟨first, rest, isText, isDigit⟩ :=
      exists_text_eq_cons standsFor.wellFormed
    exact ⟨first, rest, isText, Or.inr isDigit⟩

end Numbers

namespace Codec

/-- Amounts in range are read back. -/
theorem readsBack_amount :
    Codec.amount.ReadsBack Amount.InRange where
  write_eq_cons value _ :=
    (startsNumber_writeInteger value).exists_opensValue
  read_write_append value rest fitting ends := by
    have inWord : -2 ^ 63 ≤ value ∧ value < 2 ^ 64 := by
      simp only [Amount.InRange, Amount.least, Amount.greatest]
        at fitting
      omega
    refine readNumberAs_append (startsNumber_writeInteger value)
      (readNumber_writeInteger inWord ends) ?_
    rw [acceptInteger, if_pos (decide_eq_true fitting)]

/-- Counts below a limit of at most 64 bits are read back. -/
theorem readNumberAs_acceptCount
    {expected : Expected}
    {limit value : Nat}
    (inWord : limit ≤ 2 ^ 64)
    (below : value < limit)
    {rest : List Char}
    (ends : EndsValue rest) :
    readNumberAs expected (acceptCount expected limit)
        (writeInteger value ++ rest) =
      .ok (value, rest) := by
  have accepted :
      acceptCount expected limit (.integer value) = .ok value := by
    have inRange : 0 ≤ (value : Int) ∧ (value : Int) < limit := by
      omega
    rw [acceptCount, acceptInteger, if_pos (decide_eq_true inRange)]
    rfl
  exact readNumberAs_append (startsNumber_writeInteger value)
    (readNumber_writeInteger (by omega) ends) accepted

/-- Counts of 32 bits are read back. -/
theorem readsBack_smallCount :
    Codec.smallCount.ReadsBack fun value => value < 2 ^ 32 where
  write_eq_cons value _ :=
    (startsNumber_writeInteger value).exists_opensValue
  read_write_append _ _ fitting ends :=
    readNumberAs_acceptCount (by decide) fitting ends

/-- Counts of 64 bits are read back. -/
theorem readsBack_count :
    Codec.count.ReadsBack fun value => value < 2 ^ 64 where
  write_eq_cons value _ :=
    (startsNumber_writeInteger value).exists_opensValue
  read_write_append _ _ fitting ends :=
    readNumberAs_acceptCount (by decide) fitting ends

/-- Every string is read back. -/
theorem readsBack_string :
    Codec.string.ReadsBack fun _ => True where
  write_eq_cons _ _ := ⟨'"', _, rfl, opensValue_quote⟩
  read_write_append text rest _ _ := by
    have read := readStringBody_append text rest
    simp only [string, readString, writeString, List.cons_append,
      List.append_assoc, List.nil_append]
    exact read

/-- Truth values are read back. -/
theorem readsBack_boolean :
    Codec.boolean.ReadsBack fun _ => True where
  write_eq_cons value _ := by
    cases value
    · exact ⟨'f', _, rfl, rfl, by decide, by decide⟩
    · exact ⟨'t', _, rfl, rfl, by decide, by decide⟩
  read_write_append value rest _ _ := by
    cases value <;> rfl

/-- A label is read back if it leads back to its value. -/
theorem readsBack_labelled
    {labels : Labels α}
    (find?_label : ∀ value, labels.find? (labels.label value) = .ok value) :
    (Codec.labelled labels).ReadsBack fun _ => True where
  write_eq_cons _ _ := ⟨'"', _, rfl, opensValue_quote⟩
  read_write_append value rest _ _ := by
    have read := readStringBody_append (labels.label value) rest
    simp only [labelled, Labels.read, writeString, List.cons_append,
      List.append_assoc, List.nil_append,
      opensValue_quote.skipBlanks_cons, read, bind, Except.bind,
      find?_label]

end Codec

section Lists

variable
    {codec : Codec α}
    {fits : α → Prop}

/-- An item after a comma is read if it starts like a value. -/
theorem readItems_comma_cons
    (item : Reader α)
    (steps : Nat)
    {first : Char}
    (opens : OpensValue first)
    (rest : List Char) :
    readItems item (steps + 1) (',' :: first :: rest) = (do
      let (value, after) ← item (first :: rest)
      let (values, left) ← readItems item steps after
      .ok (value :: values, left)) := by
  simp only [readItems, skipBlanks_comma, opens.skipBlanks_cons]
  split
  · rename_i isEmpty
    cases isEmpty
  · rename_i isEnd
    injection isEnd with isBracket
    exact (opens.ne_bracket isBracket).elim
  · rfl

/-- The first item of a list is read if it starts like a value. -/
theorem readList_cons
    (item : Reader α)
    {first : Char}
    (opens : OpensValue first)
    (rest : List Char) :
    readList item ('[' :: first :: rest) = (do
      let (value, after) ← item (first :: rest)
      let (values, left) ← readItems item after.length after
      .ok (value :: values, left)) := by
  simp only [readList, opensValue_bracket.skipBlanks_cons,
    opens.skipBlanks_cons]
  split
  · rename_i isEmpty
    cases isEmpty
  · rename_i isEnd
    injection isEnd with isBracket
    exact (opens.ne_bracket isBracket).elim
  · rfl

/-- Each item brings a comma, so the text is long enough for all of them. -/
theorem length_lt_afterFirst
    (items : List (List Char))
    (closing : Char)
    (rest : List Char) :
    items.length <
      (afterFirst items ++ closing :: rest).length := by
  induction items with
  | nil => simp [afterFirst]
  | cons first items inductionHypothesis =>
      rw [afterFirst_cons]
      simp only [List.length_cons, List.length_append] at *
      omega

variable
    (readsBack : codec.ReadsBack fits)

include readsBack

/-- The items of a list after its first one are read back up to its end. -/
theorem readItems_afterFirst
    {values : List α}
    (fitting : ∀ value ∈ values, fits value)
    {steps : Nat}
    (enough : values.length < steps)
    (rest : List Char) :
    readItems codec.read steps
        (afterFirst (values.map codec.write) ++ ']' :: rest) =
      .ok (values, rest) := by
  induction values generalizing steps with
  | nil =>
      cases steps with
      | zero => exact (Nat.not_lt_zero _ enough).elim
      | succ steps => rfl
  | cons value values inductionHypothesis =>
      cases steps with
      | zero => exact (Nat.not_lt_zero _ enough).elim
      | succ steps =>
          obtain ⟨firstFits, othersFit⟩ := List.forall_mem_cons.mp fitting
          obtain ⟨first, others, isWritten, opens⟩ :=
            readsBack.write_eq_cons firstFits
          have readValue :=
            readsBack.read_write_append firstFits
              (endsValue_afterFirst (Or.inr rfl)
                (values.map codec.write) rest)
          have readOthers :=
            inductionHypothesis othersFit
              (Nat.lt_of_succ_lt_succ enough)
          rw [List.map_cons, afterFirst_cons, List.cons_append,
            List.append_assoc]
          rw [isWritten, List.cons_append] at readValue ⊢
          rw [readItems_comma_cons _ _ opens]
          simp only [readValue, readOthers, bind, Except.bind]

/-- A list of what is read back is read back. -/
theorem Codec.ReadsBack.list :
    codec.list.ReadsBack fun values => ∀ value ∈ values, fits value where
  write_eq_cons _ _ := ⟨'[', _, rfl, opensValue_bracket⟩
  read_write_append values rest fitting _ := by
    simp only [Codec.list, List.cons_append, List.append_assoc,
      List.nil_append]
    cases values with
    | nil => rfl
    | cons value values =>
        obtain ⟨firstFits, othersFit⟩ := List.forall_mem_cons.mp fitting
        obtain ⟨first, others, isWritten, opens⟩ :=
          readsBack.write_eq_cons firstFits
        have readValue :=
          readsBack.read_write_append firstFits
            (endsValue_afterFirst (Or.inr rfl)
              (values.map codec.write) rest)
        have longEnough :=
          length_lt_afterFirst (values.map codec.write) ']' rest
        rw [List.length_map] at longEnough
        have readOthers :=
          readItems_afterFirst readsBack othersFit longEnough rest
        rw [List.map_cons, joined_cons, List.append_assoc]
        rw [isWritten, List.cons_append] at readValue ⊢
        rw [readList_cons _ opens]
        simp only [readValue, readOthers, bind, Except.bind]

end Lists

end FollowOn.Json

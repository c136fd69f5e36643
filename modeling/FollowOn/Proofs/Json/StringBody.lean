import FollowOn.Json.StringBody

namespace FollowOn.Json

/-!
# Reading strings back

Every character is read back from the way it is written inside a string,
whether it stands for itself, has a letter of its own after the backslash, or
is given by its code. So a text is read back from its string, whatever follows
the closing quote.
-/

/-- A hexadecimal digit stands for its value. -/
theorem hexValue?_digitChar
    {digit : Nat}
    (isHex : digit < 16) :
    hexValue? (Nat.digitChar digit) = some digit := by
  revert digit
  decide

/-- A character with an escape of two characters is read back from it. -/
theorem readEscape_of_shortEscape?
    {character letter : Char}
    (short : shortEscape? character = some letter)
    (passOver : Bool)
    (rest : List Char) :
    readEscape passOver (letter :: rest) = .ok (character, rest) := by
  unfold shortEscape? at short
  split at short <;> cases short <;> rfl

/-- A control character is read back from its code. -/
theorem readEscape_code
    {character : Char}
    (control : character.toNat < 0x20)
    (passOver : Bool)
    (rest : List Char) :
    readEscape passOver
        ('u' :: '0' :: '0' ::
          Nat.digitChar (character.toNat / 16) ::
          Nat.digitChar (character.toNat % 16) :: rest) =
      .ok (character, rest) := by
  have unit :
      readUnit
          ('0' :: '0' ::
            Nat.digitChar (character.toNat / 16) ::
            Nat.digitChar (character.toNat % 16) :: rest) =
        .ok (character.toNat, rest) := by
    have zero : hexValue? '0' = some 0 := rfl
    have code :
        character.toNat / 16 * 16 + character.toNat % 16 =
          character.toNat := by
      omega
    simp only [readUnit, zero,
      hexValue?_digitChar (show character.toNat / 16 < 16 by omega),
      hexValue?_digitChar (show character.toNat % 16 < 16 by omega)]
    simp [code]
  have noSurrogate :
      closesPair character.toNat = false ∧
        opensPair character.toNat = false := by
    simp only [closesPair, opensPair, Bool.and_eq_false_iff,
      decide_eq_false_iff_not]
    omega
  simp [readEscape, readUnicode, unit, noSurrogate]

section ReadBody

variable
    {passOver : Bool}
    {character : Char}
    {rest : List Char}

/-- A backslash starts an escape, which stands for one character. -/
theorem readBody_backslash
    {body : List Char}
    (read : readEscape passOver body = .ok (character, rest)) :
    readBody passOver ('\\' :: body) =
      (readBody passOver rest).map (Prod.map (character :: ·) id) := by
  rw [readBody]
  split
  · rename_i failed
    rw [read] at failed
    cases failed
  · rename_i succeeded
    rw [read] at succeeded
    cases succeeded
    cases readBody passOver rest <;> rfl

/-- A printed character stands for itself. -/
theorem readBody_plain
    (noQuote : character ≠ '"')
    (noBackslash : character ≠ '\\')
    (printed : ¬character.toNat < 0x20) :
    readBody passOver (character :: rest) =
      (readBody passOver rest).map (Prod.map (character :: ·) id) := by
  rw [readBody.eq_4 _ _ _ noQuote noBackslash, if_neg printed]
  cases readBody passOver rest <;> rfl

end ReadBody

/-- A written character is read back in front of what follows. -/
theorem readBody_escape
    (passOver : Bool)
    (character : Char)
    (rest : List Char) :
    readBody passOver (escape character ++ rest) =
      (readBody passOver rest).map (Prod.map (character :: ·) id) := by
  unfold escape
  split
  · rename_i letter short
    exact
      readBody_backslash
        (readEscape_of_shortEscape? short passOver rest)
  · rename_i noShort
    split
    · rename_i control
      exact
        readBody_backslash (readEscape_code control passOver rest)
    · rename_i printed
      have noQuote : character ≠ '"' := by
        rintro rfl
        cases noShort
      have noBackslash : character ≠ '\\' := by
        rintro rfl
        cases noShort
      exact readBody_plain noQuote noBackslash printed

/-- Escaped characters are read back up to the closing quote. -/
theorem readBody_flatMap_escape
    (passOver : Bool)
    (characters rest : List Char) :
    readBody passOver
        (characters.flatMap escape ++ '"' :: rest) =
      .ok (characters, rest) := by
  induction characters with
  | nil =>
      rw [List.flatMap_nil, List.nil_append, readBody]
  | cons character characters inductionHypothesis =>
      rw [List.flatMap_cons, List.append_assoc, readBody_escape,
        inductionHypothesis]
      rfl

/-- A text is read back from its string, after the opening quote. -/
theorem readStringBody_append
    (text : String)
    (rest : List Char) :
    readStringBody
        (text.toList.flatMap escape ++ '"' :: rest) =
      .ok (text, rest) := by
  simp only [readStringBody, readBody_flatMap_escape,
    String.ofList_toList]

end FollowOn.Json

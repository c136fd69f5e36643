import FollowOn.Json.Reader

namespace FollowOn.Json

/-!
# Strings

A string stands between quotes. Quotes, backslashes and control characters
are escaped; all other characters stand for themselves. An escape may give a
character by its UTF-16 unit, or by two units that form a surrogate pair.
-/

/-- The two-character escape of a control, if it has one. -/
def shortEscape? (character : Char) : Option Char :=
  match character with
  | '"' => some '"'
  | '\\' => some '\\'
  | '\x08' => some 'b'
  | '\x0c' => some 'f'
  | '\n' => some 'n'
  | '\r' => some 'r'
  | '\t' => some 't'
  | _ => none

/-- A character as it is written inside a string. -/
def escape (character : Char) : List Char :=
  match shortEscape? character with
  | some letter => ['\\', letter]
  | none =>
      if character.toNat < 0x20 then
        ['\\', 'u', '0', '0',
          Nat.digitChar (character.toNat / 16),
          Nat.digitChar (character.toNat % 16)]
      else
        [character]

/-- A text between quotes. -/
def writeString (text : String) : List Char :=
  '"' :: (text.toList.flatMap escape ++ ['"'])

/-- The character that a two-character escape stands for. -/
def shortUnescape? (letter : Char) : Option Char :=
  match letter with
  | '"' => some '"'
  | '\\' => some '\\'
  | '/' => some '/'
  | 'b' => some '\x08'
  | 'f' => some '\x0c'
  | 'n' => some '\n'
  | 'r' => some '\r'
  | 't' => some '\t'
  | _ => none

/-- The value of a hexadecimal digit of either case. -/
def hexValue? (digit : Char) : Option Nat :=
  if '0' ≤ digit ∧ digit ≤ '9' then
    some (digit.toNat - '0'.toNat)
  else if 'a' ≤ digit ∧ digit ≤ 'f' then
    some (digit.toNat - 'a'.toNat + 10)
  else if 'A' ≤ digit ∧ digit ≤ 'F' then
    some (digit.toNat - 'A'.toNat + 10)
  else
    none

/--
Four hexadecimal digits as a number.

A text with fewer than four bytes left ends too early; otherwise anything but
four digits is a wrong escape.
-/
def readUnit : Reader Nat
  | first :: second :: third :: fourth :: rest =>
      match hexValue? first, hexValue? second,
          hexValue? third, hexValue? fourth with
      | some a, some b, some c, some d =>
          .ok (((a * 16 + b) * 16 + c) * 16 + d, rest)
      | _, _, _, _ => .error .invalidEscape
  | few =>
      if (few.map Char.utf8Size).sum < 4 then
        .error .endOfString
      else
        .error .invalidEscape

/-- A unit that opens a surrogate pair. -/
def opensPair (unit : Nat) : Bool :=
  0xd800 ≤ unit && unit ≤ 0xdbff

/-- A unit that closes a surrogate pair. -/
def closesPair (unit : Nat) : Bool :=
  0xdc00 ≤ unit && unit ≤ 0xdfff

/-- The character given by a surrogate pair. -/
def pairedCharacter (opening closing : Nat) : Char :=
  Char.ofNat
    ((opening - 0xd800) * 0x400 + (closing - 0xdc00) + 0x10000)

/-- The second half of a pair, after its first half has been read. -/
def readClosingUnit (opening : Nat) : Reader Char
  | [] => .error .endOfString
  | ['\\'] => .error .endOfString
  | '\\' :: 'u' :: rest =>
      match readUnit rest with
      | .error fault => .error fault
      | .ok (closing, after) =>
          if closesPair closing then
            .ok (pairedCharacter opening closing, after)
          else
            .error .loneSurrogate
  | _ => .error .cutSurrogate

/--
The character given by hexadecimal units.

When a string is only passed over, its units need not form characters.
-/
def readUnicode
    (passOver : Bool) :
    Reader Char :=
  fun text =>
    match readUnit text with
    | .error fault => .error fault
    | .ok (unit, rest) =>
        if passOver then
          .ok (Char.ofNat unit, rest)
        else if closesPair unit then
          .error .loneSurrogate
        else if opensPair unit then
          readClosingUnit unit rest
        else
          .ok (Char.ofNat unit, rest)

/-- The character given by an escape, after its backslash. -/
def readEscape
    (passOver : Bool) :
    Reader Char
  | [] => .error .endOfString
  | 'u' :: rest => readUnicode passOver rest
  | letter :: rest =>
      match shortUnescape? letter with
      | some character => .ok (character, rest)
      | none => .error .invalidEscape

/-- Reading a unit takes something off the text. -/
theorem length_lt_of_readUnit
    {text rest : List Char}
    {unit : Nat}
    (read : readUnit text = .ok (unit, rest)) :
    rest.length < text.length := by
  unfold readUnit at read
  split at read
  · split at read
    · simp only [Except.ok.injEq, Prod.mk.injEq] at read
      simp only [List.length_cons, ← read.2]
      omega
    · cases read
  · split at read <;> cases read

/-- Reading the second unit of a pair takes something off the text. -/
theorem length_lt_of_readClosingUnit
    {opening : Nat}
    {text rest : List Char}
    {character : Char}
    (read : readClosingUnit opening text = .ok (character, rest)) :
    rest.length < text.length := by
  unfold readClosingUnit at read
  split at read
  · cases read
  · cases read
  · split at read
    · cases read
    · rename_i unitRead
      have shorter := length_lt_of_readUnit unitRead
      split at read
      · simp only [Except.ok.injEq, Prod.mk.injEq] at read
        simp only [List.length_cons, ← read.2]
        omega
      · cases read
  · cases read

/-- Reading an escape by code takes something off the text. -/
theorem length_lt_of_readUnicode
    {passOver : Bool}
    {text rest : List Char}
    {character : Char}
    (read : readUnicode passOver text = .ok (character, rest)) :
    rest.length < text.length := by
  unfold readUnicode at read
  split at read
  · cases read
  · rename_i unitRead
    have shorter := length_lt_of_readUnit unitRead
    split at read
    · simp only [Except.ok.injEq, Prod.mk.injEq] at read
      rw [← read.2]
      exact shorter
    · split at read
      · cases read
      · split at read
        · exact Nat.lt_trans (length_lt_of_readClosingUnit read) shorter
        · simp only [Except.ok.injEq, Prod.mk.injEq] at read
          rw [← read.2]
          exact shorter

/-- An escape takes at least one character off the text. -/
theorem length_lt_of_readEscape
    {passOver : Bool}
    {text rest : List Char}
    {character : Char}
    (read : readEscape passOver text = .ok (character, rest)) :
    rest.length < text.length := by
  unfold readEscape at read
  split at read
  · cases read
  · have shorter := length_lt_of_readUnicode read
    simp only [List.length_cons]
    omega
  · split at read
    · simp only [Except.ok.injEq, Prod.mk.injEq] at read
      simp [← read.2]
    · cases read

/-- The characters of a string up to its closing quote. -/
def readBody
    (passOver : Bool)
    (text : List Char) :
    Except Fault (List Char × List Char) :=
  match text with
  | [] => .error .endOfString
  | '"' :: rest => .ok ([], rest)
  | '\\' :: rest =>
      match _ : readEscape passOver rest with
      | .error fault => .error fault
      | .ok (character, after) =>
          match readBody passOver after with
          | .error fault => .error fault
          | .ok (characters, left) => .ok (character :: characters, left)
  | character :: rest =>
      if character.toNat < 0x20 then
        .error .controlCharacter
      else
        match readBody passOver rest with
        | .error fault => .error fault
        | .ok (characters, left) => .ok (character :: characters, left)
termination_by text.length
decreasing_by
  · rename_i escapeRead
    have shorter := length_lt_of_readEscape escapeRead
    simp only [List.length_cons]
    omega
  · simp only [List.length_cons]
    omega

/-- A string, after its opening quote. -/
def readStringBody : Reader String :=
  fun text =>
    match readBody false text with
    | .error fault => .error fault
    | .ok (characters, rest) => .ok (String.ofList characters, rest)

/-- What follows a string that is passed over, after its opening quote. -/
def afterStringBody (text : List Char) : Except Fault (List Char) :=
  match readBody true text with
  | .error fault => .error fault
  | .ok (_, rest) => .ok rest

end FollowOn.Json

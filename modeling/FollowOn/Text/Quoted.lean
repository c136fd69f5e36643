import FollowOn.Text.Visible

namespace FollowOn.Text

/-!
# Quoted text in messages

A message shows a text between double quotes. Quotes and backslashes get a
backslash, four controls have a letter, and every other hidden character is
written by its code point in hexadecimal.
-/

/-- Lowercase hexadecimal digits of a number. -/
def hexDigits (number : Nat) : List Char :=
  Nat.toDigits 16 number

/-- One character inside quotes. -/
def quoteCharacter (character : Char) : List Char :=
  match character with
  | '\x00' => ['\\', '0']
  | '\t' => ['\\', 't']
  | '\r' => ['\\', 'r']
  | '\n' => ['\\', 'n']
  | '\\' => ['\\', '\\']
  | '"' => ['\\', '"']
  | other =>
      if isVisible other then
        [other]
      else
        ['\\', 'u', '{'] ++ hexDigits other.toNat ++ ['}']

/-- A text between double quotes. -/
def quoted (text : String) : String :=
  String.ofList
    ('"' :: (text.toList.flatMap quoteCharacter ++ ['"']))

end FollowOn.Text

import FollowOn.Json.Fault

namespace FollowOn.Json

/-!
# Reading from the front of a text

A reader takes the text still to be read and gives a value with the text that
follows it. Reading goes strictly from left to right and stops at the first
fault. This module holds the parts that every reader shares: blanks, fixed
words, the marks between values.
-/

/-- Takes a value from the front of a text. -/
abbrev Reader (α : Type) :=
  List Char → Except Fault (α × List Char)

/-- The four blanks that may stand between the parts of a value. -/
def isBlank (character : Char) : Bool :=
  character == ' ' || character == '\n' ||
    character == '\t' || character == '\r'

/-- The text from its first character that is not blank. -/
def skipBlanks (text : List Char) : List Char :=
  text.dropWhile isBlank

/-- What follows a fixed word. -/
def afterWord :
    List Char →
    List Char →
    Except Fault (List Char)
  | [], rest => .ok rest
  | _ :: _, [] => .error .endOfValue
  | due :: word, character :: rest =>
      if character = due then
        afterWord word rest
      else
        .error .expectedWord

/-- What follows the colon between a key and its value. -/
def afterColon (text : List Char) : Except Fault (List Char) :=
  match skipBlanks text with
  | ':' :: rest => .ok rest
  | [] => .error .endOfObject
  | _ => .error .expectedColon

/-- A text without a blank in front is not changed by skipping blanks. -/
theorem skipBlanks_of_not_isBlank
    {character : Char}
    {rest : List Char}
    (notBlank : isBlank character = false) :
    skipBlanks (character :: rest) = character :: rest := by
  simp [skipBlanks, notBlank]

end FollowOn.Json

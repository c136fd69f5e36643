import FollowOn.Json.Number
import FollowOn.Json.StringBody

namespace FollowOn.Json

/-!
# Passing over values

A value that nobody asked for is passed over: it must be well formed, at any
depth, but nothing is kept of it. The open lists and objects around the place
of reading are held in a stack, innermost first.
-/

/-- What is open around the place of reading. -/
inductive Frame where
  | list
  | object
deriving Repr, DecidableEq

/-- Where passing over stands after a value. -/
inductive Progress where
  /-- The outermost value has ended. -/
  | done (rest : List Char)
  /-- Another value is due inside these frames. -/
  | pending (frames : List Frame) (rest : List Char)
deriving Repr, DecidableEq

/-- What follows a key and its colon. -/
def afterKey (text : List Char) : Except Fault (List Char) :=
  match skipBlanks text with
  | '"' :: body => do
      afterColon (← afterStringBody body)
  | [] => .error .endOfObject
  | _ => .error .keyNotText

/--
Leave a value: close the frames that end here, until a comma asks for another
value or nothing is open.
-/
def leave :
    List Frame →
    List Char →
    Except Fault Progress
  | [], text => .ok (.done text)
  | .list :: outer, text =>
      match skipBlanks text with
      | ',' :: rest => .ok (.pending (.list :: outer) rest)
      | ']' :: rest => leave outer rest
      | [] => .error .endOfList
      | _ => .error .expectedCommaOrBracket
  | .object :: outer, text =>
      match skipBlanks text with
      | ',' :: rest => do
          .ok (.pending (.object :: outer) (← afterKey rest))
      | '}' :: rest => leave outer rest
      | [] => .error .endOfObject
      | _ => .error .expectedCommaOrBrace

/-- Enter a list or an object, or pass over one value that is neither. -/
def enter
    (frames : List Frame)
    (text : List Char) :
    Except Fault Progress :=
  match skipBlanks text with
  | [] => .error .endOfValue
  | 'n' :: rest => do leave frames (← afterWord "ull".toList rest)
  | 't' :: rest => do leave frames (← afterWord "rue".toList rest)
  | 'f' :: rest => do leave frames (← afterWord "alse".toList rest)
  | '"' :: rest => do leave frames (← afterStringBody rest)
  | '-' :: rest => do leave frames (← afterNumber rest)
  | '[' :: rest =>
      match skipBlanks rest with
      | [] => .error .endOfList
      | ']' :: after => leave frames after
      | inside => .ok (.pending (.list :: frames) inside)
  | '{' :: rest =>
      match skipBlanks rest with
      | [] => .error .endOfObject
      | '}' :: after => leave frames after
      | inside => do
          .ok (.pending (.object :: frames) (← afterKey inside))
  | first :: rest =>
      if first.isDigit then do
        leave frames (← afterNumber (first :: rest))
      else
        .error .expectedValue

/--
Pass over values until nothing is open.

Each step takes at least one character, so the length of the text bounds the
number of steps.
-/
def passSteps :
    Nat →
    List Frame →
    List Char →
    Except Fault (List Char)
  | 0, _, _ => .error .endOfValue
  | steps + 1, frames, text => do
      match ← enter frames text with
      | .done rest => .ok rest
      | .pending open_ rest => passSteps steps open_ rest

/-- What follows the value in front. -/
def afterValue (text : List Char) : Except Fault (List Char) :=
  passSteps (text.length + 1) [] text

/--
The fault of meeting another value than the one that is due.

The value in front is read as far as its kind asks for, so a value that is
itself malformed gives its own fault.
-/
def mismatch
    (expected : Expected)
    (text : List Char) :
    Fault :=
  match text with
  | [] => .endOfValue
  | 'n' :: rest =>
      match afterWord "ull".toList rest with
      | .ok _ => .wrongType .null expected
      | .error fault => fault
  | 't' :: rest =>
      match afterWord "rue".toList rest with
      | .ok _ => .wrongType (.boolean true) expected
      | .error fault => fault
  | 'f' :: rest =>
      match afterWord "alse".toList rest with
      | .ok _ => .wrongType (.boolean false) expected
      | .error fault => fault
  | '"' :: rest =>
      match readStringBody rest with
      | .ok (value, _) => .wrongType (.text value) expected
      | .error fault => fault
  | '[' :: _ => .wrongType .sequence expected
  | '{' :: _ => .wrongType .map expected
  | first :: _ =>
      if first = '-' ∨ first.isDigit then
        match readNumber text with
        | .ok (number, _) => .wrongType number.found expected
        | .error fault => fault
      else
        .expectedValue

end FollowOn.Json

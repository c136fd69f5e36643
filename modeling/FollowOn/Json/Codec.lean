import FollowOn.Amount
import FollowOn.Json.PassOver

namespace FollowOn.Json

/-!
# Codecs

A codec writes the values of a type as text and reads them back from the front
of a text. This module holds the codecs of single values, of enumerations, of
optional values and of lists; records are built in `FollowOn.Json.Record`.
-/

/-- How the values of a type are written and read. -/
structure Codec (α : Type) where
  write : α → List Char
  read : Reader α

namespace Codec

/-- The text of a value. -/
def encode
    (codec : Codec α)
    (value : α) :
    String :=
  String.ofList (codec.write value)

/-- The value that a whole text holds; only blanks may follow it. -/
def decode
    (codec : Codec α)
    (text : String) :
    Except Fault α :=
  match codec.read text.toList with
  | .error fault => .error fault
  | .ok (value, rest) =>
      if (skipBlanks rest).isEmpty then
        .ok value
      else
        .error .trailingCharacters

end Codec

/-- A number where one is due, and what the given rule makes of it. -/
def readNumberAs
    (expected : Expected)
    (accept : Number → Except Fault α) :
    Reader α :=
  fun text =>
    match skipBlanks text with
    | first :: rest =>
        if first = '-' ∨ first.isDigit then do
          let (number, after) ← readNumber (first :: rest)
          let value ← accept number
          .ok (value, after)
        else
          .error (mismatch expected (first :: rest))
    | [] => .error .endOfValue

/-- An integer that passes a test of its range. -/
def acceptInteger
    (expected : Expected)
    (inRange : Int → Bool)
    (number : Number) :
    Except Fault Int :=
  match number with
  | .integer value =>
      if inRange value then
        .ok value
      else
        .error (.wrongInteger value expected)
  | .floating value =>
      .error (.wrongType (.floating value) expected)

/-- A natural number below a limit. -/
def acceptCount
    (expected : Expected)
    (limit : Nat)
    (number : Number) :
    Except Fault Nat :=
  (acceptInteger expected
    (fun value => decide (0 ≤ value ∧ value < limit)) number).map
      Int.toNat

def readString : Reader String :=
  fun text =>
    match skipBlanks text with
    | '"' :: body => readStringBody body
    | other => .error (mismatch .text other)

def readBoolean : Reader Bool :=
  fun text =>
    match skipBlanks text with
    | 't' :: rest => do
        .ok (true, ← afterWord "rue".toList rest)
    | 'f' :: rest => do
        .ok (false, ← afterWord "alse".toList rest)
    | other => .error (mismatch .boolean other)

/-- What follows `null` where no value is due. -/
def afterNothing (text : List Char) : Except Fault (List Char) :=
  match skipBlanks text with
  | 'n' :: rest => afterWord "ull".toList rest
  | other => .error (mismatch .nothing other)

namespace Codec

def amount : Codec Int where
  write := writeInteger
  read :=
    readNumberAs .amount
      (acceptInteger .amount fun value =>
        decide (Amount.InRange value))

/-- Natural numbers of 32 bits. -/
def smallCount : Codec Nat where
  write value := writeInteger value
  read := readNumberAs .smallCount (acceptCount .smallCount (2 ^ 32))

/-- Natural numbers of 64 bits. -/
def count : Codec Nat where
  write value := writeInteger value
  read := readNumberAs .count (acceptCount .count (2 ^ 64))

def string : Codec String where
  write := writeString
  read := readString

def boolean : Codec Bool where
  write
    | true => "true".toList
    | false => "false".toList
  read := readBoolean

/-- A value or nothing, which is written `null`. -/
def optional (codec : Codec α) : Codec (Option α) where
  write
    | some value => codec.write value
    | none => "null".toList
  read text :=
    match skipBlanks text with
    | 'n' :: rest => do
        .ok (none, ← afterWord "ull".toList rest)
    | other => do
        let (value, rest) ← codec.read other
        .ok (some value, rest)

end Codec

/-- The values of an enumeration with their labels, in order. -/
structure Labels (α : Type) where
  all : List α
  label : α → String

namespace Labels

/-- The value with a given label. -/
def find?
    (labels : Labels α)
    (label : String) :
    Except Fault α :=
  match labels.all.find? (fun value => labels.label value == label) with
  | some value => .ok value
  | none =>
      .error (.unknownLabel label (labels.all.map labels.label))

/--
The only key of an object, after its opening brace.

An object without a key holds no value at all; any other text that is not a
string is no key.
-/
def readOnlyKey : Reader String :=
  fun text =>
    match skipBlanks text with
    | '"' :: body => readStringBody body
    | '}' :: _ => .error .expectedValue
    | [] => .error .endOfObject
    | _ => .error .keyNotText

/-- A label as the only key of an object, with no value. -/
def readKeyed
    (labels : Labels α) :
    Reader α :=
  fun text => do
    let (name, afterName) ← readOnlyKey text
    let value ← labels.find? name
    let rest ← afterNothing (← afterColon afterName)
    match skipBlanks rest with
    | '}' :: after => .ok (value, after)
    | [] => .error .endOfObject
    | _ => .error .expectedValue

/-- A label, as a string or as the only key of an object. -/
def read
    (labels : Labels α) :
    Reader α :=
  fun text =>
    match skipBlanks text with
    | '"' :: body => do
        let (name, rest) ← readStringBody body
        .ok (← labels.find? name, rest)
    | '{' :: body => labels.readKeyed body
    | [] => .error .endOfValue
    | _ => .error .expectedValue

end Labels

/-- An enumeration, written by its labels. -/
def Codec.labelled (labels : Labels α) : Codec α where
  write value := writeString (labels.label value)
  read := labels.read

/-- Items with a comma between each two. -/
def joined : List (List Char) → List Char
  | [] => []
  | [last] => last
  | first :: second :: rest =>
      first ++ ',' :: joined (second :: rest)

/--
The items of a list after its first one, and its closing bracket.

Each item takes a comma off the text, so the length of the text bounds their
number.
-/
def readItems
    (item : Reader α) :
    Nat →
    Reader (List α)
  | 0, _ => .error .endOfList
  | steps + 1, text =>
      match skipBlanks text with
      | [] => .error .endOfList
      | ']' :: rest => .ok ([], rest)
      | ',' :: rest =>
          match skipBlanks rest with
          | [] => .error .endOfValue
          | ']' :: _ => .error .trailingComma
          | inside => do
              let (value, after) ← item inside
              let (values, left) ← readItems item steps after
              .ok (value :: values, left)
      | _ => .error .expectedCommaOrBracket

/-- A list, at its bracket. -/
def readList
    (item : Reader α) :
    Reader (List α) :=
  fun text =>
    match skipBlanks text with
    | '[' :: rest =>
        match skipBlanks rest with
        | [] => .error .endOfList
        | ']' :: after => .ok ([], after)
        | inside => do
            let (value, after) ← item inside
            let (values, left) ← readItems item after.length after
            .ok (value :: values, left)
    | other => .error (mismatch .sequence other)

def Codec.list (codec : Codec α) : Codec (List α) where
  write values :=
    '[' :: (joined (values.map codec.write) ++ [']'])
  read := readList codec.read

end FollowOn.Json

import FollowOn.Json.Reader
import FollowOn.Json.Scaling

namespace FollowOn.Json

/-!
# Numbers

A number without a point and an exponent is an integer if it fits in 64 bits,
signed or unsigned; every other number is a floating-point number. Minus zero
is a floating-point number too, since no integer keeps its sign.
-/

/-- A number as it is found in a text. -/
inductive Number where
  | integer (value : Int)
  | floating (value : Binary64)
deriving Repr, DecidableEq

/-- A number as a floating-point number. -/
def Number.toBinary64 : Number → Binary64
  | .integer value => Binary64.ofInt value
  | .floating value => value

/-- A number as it is named when another kind of value was due. -/
def Number.found : Number → Found
  | .integer value => .integer value
  | .floating value => .floating value

/-- Digits before the point: no zero stands in front of another digit. -/
def readWhole : Reader (List Char)
  | [] => .error .endOfValue
  | '0' :: rest =>
      match rest with
      | next :: _ =>
          if next.isDigit then
            .error .invalidNumber
          else
            .ok (['0'], rest)
      | [] => .ok (['0'], [])
  | text@(first :: _) =>
      if first.isDigit then
        .ok (text.span Char.isDigit)
      else
        .error .invalidNumber

/-- Digits after a point, if there is a point. -/
def readFraction : Reader (Option (List Char))
  | '.' :: rest =>
      match rest.span Char.isDigit with
      | ([], []) => .error .endOfValue
      | ([], _ :: _) => .error .invalidNumber
      | (places, after) => .ok (some places, after)
  | rest => .ok (none, rest)

/-- An exponent, if there is one. -/
def readExponent : Reader (Option Int)
  | [] => .ok (none, [])
  | mark :: rest =>
      if mark = 'e' ∨ mark = 'E' then
        let (negative, body) := Decimal.splitSign rest
        match body.span Char.isDigit with
        | ([], []) => .error .endOfValue
        | ([], _ :: _) => .error .invalidNumber
        | (places, after) =>
            .ok
              (some (Binary64.signed negative
                (Decimal.natOfDigits places)), after)
      else
        .ok (none, mark :: rest)

/-- An integer that has a sign and fits in 64 bits. -/
def integer? (negative : Bool) (magnitude : Nat) : Option Int :=
  if negative then
    if magnitude ≠ 0 ∧ magnitude ≤ 2 ^ 63 then
      some (-(magnitude : Int))
    else
      none
  else if magnitude < 2 ^ 64 then
    some magnitude
  else
    none

/-- The number made of a sign, digits, and an exponent. -/
def assemble
    (negative : Bool)
    (whole : List Char)
    (fraction : Option (List Char))
    (exponent : Option Int) :
    Except Fault Number :=
  let exact := fraction.isNone && exponent.isNone
  let magnitude := Decimal.natOfDigits whole
  match exact, integer? negative magnitude with
  | true, some value => .ok (.integer value)
  | _, _ =>
      let places := fraction.getD []
      let front := takeUp 0 whole
      let all := takeUp front.value places
      let placed : Int := front.leftOut + all.leftOut - places.length
      match floating? negative all.value placed (exponent.getD 0) with
      | some number => .ok (.floating number)
      | none => .error .numberOutOfRange

/-- A number without its sign. -/
def readUnsigned (negative : Bool) : Reader Number :=
  fun text => do
    let (whole, rest) ← readWhole text
    let (fraction, rest) ← readFraction rest
    let (exponent, rest) ← readExponent rest
    let number ← assemble negative whole fraction exponent
    .ok (number, rest)

/-- A number, at its sign or first digit. -/
def readNumber : Reader Number
  | '-' :: rest => readUnsigned true rest
  | text => readUnsigned false text

/-- What follows at least one digit; anything else is no number. -/
def afterDigits (text : List Char) : Except Fault (List Char) :=
  match text.span Char.isDigit with
  | ([], _) => .error .invalidNumber
  | (_, rest) => .ok rest

/-- What follows an exponent that is passed over. -/
def afterExponent : List Char → Except Fault (List Char)
  | [] => .ok []
  | mark :: rest =>
      if mark = 'e' ∨ mark = 'E' then
        afterDigits (Decimal.splitSign rest).2
      else
        .ok (mark :: rest)

/-- What follows the digits before the point in a number that is passed over. -/
def afterWhole (text : List Char) : Except Fault (List Char) :=
  match text with
  | '0' :: next :: rest =>
      if next.isDigit then
        .error .invalidNumber
      else
        .ok (next :: rest)
  | _ => afterDigits text

/--
What follows a number that is passed over, after its sign. Unlike a number
that is read, one that is cut off by the end of the text is just invalid.
-/
def afterNumber (text : List Char) : Except Fault (List Char) := do
  match ← afterWhole text with
  | '.' :: rest => afterExponent (← afterDigits rest)
  | rest => afterExponent rest

/-- The digits of an integer, with its sign. -/
def writeInteger (value : Int) : List Char :=
  let digits := Decimal.digits value.natAbs
  if value < 0 then '-' :: digits else digits

end FollowOn.Json

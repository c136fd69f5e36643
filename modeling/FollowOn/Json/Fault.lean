import FollowOn.Decimal.Layout
import FollowOn.Text.Quoted

namespace FollowOn.Json

/-!
# Faults of structured data

What can be wrong with a text that should hold a value: its form, the kind of
value found, or what a value says. A fault is a cause; `Fault.message` puts it
into words.
-/

/-- A value met where another kind of value was due. -/
inductive Found where
  | integer (value : Int)
  | floating (value : Binary64)
  | text (value : String)
  | boolean (value : Bool)
  | null
  | sequence
  | map
deriving Repr, DecidableEq

/-- The kind of value that was due. -/
inductive Expected where
  /-- A signed integer of 64 bits. -/
  | amount
  /-- An unsigned integer of 32 bits. -/
  | smallCount
  /-- An unsigned integer of 64 bits. -/
  | count
  /-- A floating-point number. -/
  | number
  | text
  | boolean
  | sequence
  | map
  /-- No value at all. -/
  | nothing
  /-- A record of the given name. -/
  | record (name : String)
deriving Repr, DecidableEq

/-- Why a text could not be read as a value. -/
inductive Fault where
  | endOfValue
  | endOfString
  | endOfList
  | endOfObject
  | expectedValue
  | expectedWord
  | expectedColon
  | expectedCommaOrBracket
  | expectedCommaOrBrace
  | keyNotText
  | trailingComma
  | trailingCharacters
  | invalidNumber
  | numberOutOfRange
  | invalidEscape
  /-- The first half of a surrogate pair without an escape after it. -/
  | cutSurrogate
  /-- Half of a surrogate pair in the wrong place. -/
  | loneSurrogate
  | controlCharacter
  | wrongType (found : Found) (expected : Expected)
  /-- An integer outside the range of its kind. -/
  | wrongInteger (value : Int) (expected : Expected)
  /-- A record given as a list that ends too early. -/
  | wrongLength (length : Nat) (record : String) (size : Nat)
  | missingField (name : String)
  | duplicateField (name : String)
  | unknownLabel (label : String) (known : List String)
  /-- A value of the right kind that its type does not admit. -/
  | refused (reason : String)
deriving Repr, DecidableEq

/-- Found values in words. -/
def Found.describe : Found → String
  | .integer value => s!"integer `{value}`"
  | .floating value =>
      s!"floating point `{value.text Decimal.Layout.data}`"
  | .text value => s!"string {Text.quoted value}"
  | .boolean true => "boolean `true`"
  | .boolean false => "boolean `false`"
  | .null => "null"
  | .sequence => "sequence"
  | .map => "map"

/-- Expected kinds in words. -/
def Expected.describe : Expected → String
  | .amount => "i64"
  | .smallCount => "u32"
  | .count => "usize"
  | .number => "f64"
  | .text => "a string"
  | .boolean => "a boolean"
  | .sequence => "a sequence"
  | .map => "a map"
  | .nothing => "unit"
  | .record name => s!"struct {name}"

/-- A list of known labels in words: one, either of two, or one of many. -/
def describeKnown (known : List String) : String :=
  match known with
  | [] => "there are no variants"
  | [only] => s!"expected `{only}`"
  | [first, second] => s!"expected `{first}` or `{second}`"
  | many =>
      let listed := ", ".intercalate (many.map fun label => s!"`{label}`")
      s!"expected one of {listed}"

/-- The fault in words. -/
def Fault.message : Fault → String
  | .endOfValue => "EOF while parsing a value"
  | .endOfString => "EOF while parsing a string"
  | .endOfList => "EOF while parsing a list"
  | .endOfObject => "EOF while parsing an object"
  | .expectedValue => "expected value"
  | .expectedWord => "expected ident"
  | .expectedColon => "expected `:`"
  | .expectedCommaOrBracket => "expected `,` or `]`"
  | .expectedCommaOrBrace => "expected `,` or `\x7d`"
  | .keyNotText => "key must be a string"
  | .trailingComma => "trailing comma"
  | .trailingCharacters => "trailing characters"
  | .invalidNumber => "invalid number"
  | .numberOutOfRange => "number out of range"
  | .invalidEscape => "invalid escape"
  | .cutSurrogate => "unexpected end of hex escape"
  | .loneSurrogate => "lone leading surrogate in hex escape"
  | .controlCharacter =>
      "control character (\\u0000-\\u001F) found while parsing a string"
  | .wrongType found expected =>
      s!"invalid type: {found.describe}, expected {expected.describe}"
  | .wrongInteger value expected =>
      s!"invalid value: integer `{value}`, expected {expected.describe}"
  | .wrongLength length record size =>
      s!"invalid length {length}, expected struct {record} with {size} elements"
  | .missingField name => s!"missing field `{name}`"
  | .duplicateField name => s!"duplicate field `{name}`"
  | .unknownLabel label known =>
      s!"unknown variant `{label}`, {describeKnown known}"
  | .refused reason => reason

end FollowOn.Json

import FollowOn.Json.Codec

namespace FollowOn.Json

/-!
# Records

A record is written as an object with its members in a fixed order, and read
from an object with its members in any order or from a list of their values.
`Members` describes the members once; writing, reading from an object, and
reading from a list follow from it.
-/

/-- One member of a record. -/
structure Member (α : Type) where
  name : String
  codec : Codec α
  /-- The value of a missing member, unless it is required. -/
  missing : Option α
  /-- Whether a value is left out when it is written. -/
  leftOut : α → Bool

namespace Member

/-- A member that must be present and is always written. -/
def required
    (name : String)
    (codec : Codec α) :
    Member α where
  name := name
  codec := codec
  missing := none
  leftOut _ := false

/-- A member that has a value when it is missing and is always written. -/
def defaulted
    (name : String)
    (codec : Codec α)
    (value : α) :
    Member α where
  name := name
  codec := codec
  missing := some value
  leftOut _ := false

/-- A member that is left out when it holds nothing. -/
def optional
    (name : String)
    (codec : Codec α) :
    Member (Option α) where
  name := name
  codec := codec.optional
  missing := some none
  leftOut := Option.isNone

/-- A list that is left out when it is empty. -/
def nonempty
    (name : String)
    (codec : Codec α) :
    Member (List α) where
  name := name
  codec := codec.list
  missing := some []
  leftOut := List.isEmpty

end Member

/--
The members of a record in order.

`τ` holds a value for each member; `δ` holds what has been read so far, one
optional value for each.
-/
inductive Members : Type → Type → Type 1 where
  | nil : Members Unit Unit
  | cons
      (member : Member α)
      (others : Members τ δ) :
      Members (α × τ) (Option α × δ)

namespace Members

/-- Number of members. -/
def size : Members τ δ → Nat
  | .nil => 0
  | .cons _ others => others.size + 1

/-- Nothing read yet. -/
def blank : Members τ δ → δ
  | .nil => ()
  | .cons _ others => (none, others.blank)

/-- Each written member, with its name. -/
def written : Members τ δ → τ → List (List Char)
  | .nil, () => []
  | .cons member others, (value, values) =>
      if member.leftOut value then
        others.written values
      else
        (writeString member.name ++ ':' :: member.codec.write value) ::
          others.written values

/--
Read the value of the member with a given name.

A member may come only once, which is noticed before its value is read. The
value of an unknown member is passed over.
-/
def readMember
    (name : String) :
    Members τ δ →
    δ →
    Reader δ
  | .nil, (), text => do
      .ok ((), ← afterValue (← afterColon text))
  | .cons member others, (held, rest), text =>
      if member.name = name then
        match held with
        | some _ => .error (.duplicateField name)
        | none => do
            let (value, after) ←
              member.codec.read (← afterColon text)
            .ok ((some value, rest), after)
      else do
        let (read, after) ← others.readMember name rest text
        .ok ((held, read), after)

/-- The values of all members, once an object has ended. -/
def complete :
    Members τ δ →
    δ →
    Except Fault τ
  | .nil, () => .ok ()
  | .cons member others, (held, rest) =>
      match held.or member.missing with
      | none => .error (.missingField member.name)
      | some value => do
          .ok (value, ← others.complete rest)

end Members

/--
The members of an object after its first one, and its closing brace, each read
by `member` into what has been read before.

Each member takes a comma off the text, so the length of the text bounds their
number.
-/
def readMembers
    (member : String → δ → Reader δ) :
    Nat →
    δ →
    Reader δ
  | 0, _, _ => .error .endOfObject
  | steps + 1, held, text =>
      match skipBlanks text with
      | [] => .error .endOfObject
      | '}' :: rest => .ok (held, rest)
      | ',' :: rest =>
          match skipBlanks rest with
          | [] => .error .endOfValue
          | '}' :: _ => .error .trailingComma
          | '"' :: body => do
              let (name, afterName) ← readStringBody body
              let (read, after) ← member name held afterName
              readMembers member steps read after
          | _ => .error .keyNotText
      | _ => .error .expectedCommaOrBrace

/-- The members of an object, after its opening brace. -/
def readObject
    (member : String → δ → Reader δ)
    (held : δ) :
    Reader δ :=
  fun text =>
    match skipBlanks text with
    | [] => .error .endOfObject
    | '}' :: rest => .ok (held, rest)
    | '"' :: body => do
        let (name, afterName) ← readStringBody body
        let (read, after) ← member name held afterName
        readMembers member after.length read after
    | _ => .error .keyNotText

/-- The place of the next value in a list, if the list goes on. -/
def nextValue?
    (atStart : Bool)
    (text : List Char) :
    Except Fault (Option (List Char)) :=
  match skipBlanks text with
  | [] => .error .endOfList
  | ']' :: _ => .ok none
  | inside =>
      if atStart then
        .ok (some inside)
      else
        match inside with
        | ',' :: rest =>
            match skipBlanks rest with
            | [] => .error .endOfValue
            | ']' :: _ => .error .trailingComma
            | value => .ok (some value)
        | _ => .error .expectedCommaOrBracket

/-- What follows the closing bracket of a list that must end here. -/
def afterListEnd (text : List Char) : Except Fault (List Char) :=
  match skipBlanks text with
  | ']' :: rest => .ok rest
  | [] => .error .endOfList
  | ',' :: rest =>
      match skipBlanks rest with
      | ']' :: _ => .error .trailingComma
      | _ => .error .trailingCharacters
  | _ => .error .trailingCharacters

/--
The values of members from a list, after its opening bracket.

A list that ends early leaves its members missing; `read` counts the values
before the place of reading.
-/
def Members.readPositional
    (record : String)
    (size : Nat) :
    Members τ δ →
    (read : Nat) →
    (atStart : Bool) →
    Reader τ
  | .nil, _, _, text => .ok ((), text)
  | .cons member others, read, atStart, text => do
      match ← nextValue? atStart text with
      | some inside =>
          let (value, after) ← member.codec.read inside
          let (values, left) ←
            others.readPositional record size (read + 1) false after
          .ok ((value, values), left)
      | none =>
          match member.missing with
          | none => .error (.wrongLength read record size)
          | some value =>
              let (values, left) ←
                others.readPositional record size (read + 1) atStart text
              .ok ((value, values), left)

/-- A record with the given name and members. -/
def Codec.record
    (name : String)
    (members : Members τ δ)
    (build : τ → α)
    (values : α → τ) :
    Codec α where
  write value :=
    '{' :: (joined (members.written (values value)) ++ ['}'])
  read text :=
    match skipBlanks text with
    | '{' :: body => do
        let (held, rest) ←
          readObject (fun key => members.readMember key)
            members.blank body
        .ok (build (← members.complete held), rest)
    | '[' :: body => do
        let (read, after) ←
          members.readPositional name members.size 0 true body
        .ok (build read, ← afterListEnd after)
    | other => .error (mismatch (.record name) other)

end FollowOn.Json

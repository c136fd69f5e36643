namespace FollowOn.Sha256

/-!
# SHA-256

The hash function SHA-256 on lists of bytes. A message is padded to whole
blocks of sixteen words; each block is compressed into a state of eight words
in 64 rounds. The words that the rounds use are produced on the way: a window
holds the next sixteen of them.
-/

/-- The constants of the 64 rounds. -/
def roundConstants : List UInt32 :=
  [
    0x428a2f98, 0x71374491, 0xb5c0fbcf, 0xe9b5dba5,
    0x3956c25b, 0x59f111f1, 0x923f82a4, 0xab1c5ed5,
    0xd807aa98, 0x12835b01, 0x243185be, 0x550c7dc3,
    0x72be5d74, 0x80deb1fe, 0x9bdc06a7, 0xc19bf174,
    0xe49b69c1, 0xefbe4786, 0x0fc19dc6, 0x240ca1cc,
    0x2de92c6f, 0x4a7484aa, 0x5cb0a9dc, 0x76f988da,
    0x983e5152, 0xa831c66d, 0xb00327c8, 0xbf597fc7,
    0xc6e00bf3, 0xd5a79147, 0x06ca6351, 0x14292967,
    0x27b70a85, 0x2e1b2138, 0x4d2c6dfc, 0x53380d13,
    0x650a7354, 0x766a0abb, 0x81c2c92e, 0x92722c85,
    0xa2bfe8a1, 0xa81a664b, 0xc24b8b70, 0xc76c51a3,
    0xd192e819, 0xd6990624, 0xf40e3585, 0x106aa070,
    0x19a4c116, 0x1e376c08, 0x2748774c, 0x34b0bcb5,
    0x391c0cb3, 0x4ed8aa4a, 0x5b9cca4f, 0x682e6ff3,
    0x748f82ee, 0x78a5636f, 0x84c87814, 0x8cc70208,
    0x90befffa, 0xa4506ceb, 0xbef9a3f7, 0xc67178f2
  ]

structure State where
  a : UInt32
  b : UInt32
  c : UInt32
  d : UInt32
  e : UInt32
  f : UInt32
  g : UInt32
  h : UInt32
deriving Repr, DecidableEq

def State.initial : State where
  a := 0x6a09e667
  b := 0xbb67ae85
  c := 0x3c6ef372
  d := 0xa54ff53a
  e := 0x510e527f
  f := 0x9b05688c
  g := 0x1f83d9ab
  h := 0x5be0cd19

def State.add (left right : State) : State where
  a := left.a + right.a
  b := left.b + right.b
  c := left.c + right.c
  d := left.d + right.d
  e := left.e + right.e
  f := left.f + right.f
  g := left.g + right.g
  h := left.h + right.h

def State.words (state : State) : List UInt32 :=
  [state.a, state.b, state.c, state.d,
    state.e, state.f, state.g, state.h]

def rotate (word count : UInt32) : UInt32 :=
  (word >>> count) ||| (word <<< (32 - count))

/-- One round with its constant and its word of the message. -/
def State.round (constant word : UInt32) (state : State) : State :=
  let mixed :=
    rotate state.e 6 ^^^ rotate state.e 11 ^^^ rotate state.e 25
  let chosen :=
    (state.e &&& state.f) ^^^ (~~~state.e &&& state.g)
  let first := state.h + mixed + chosen + constant + word
  let spread :=
    rotate state.a 2 ^^^ rotate state.a 13 ^^^ rotate state.a 22
  let majority :=
    (state.a &&& state.b) ^^^ (state.a &&& state.c) ^^^
      (state.b &&& state.c)
  { a := first + spread + majority
    b := state.a
    c := state.b
    d := state.c
    e := state.d + first
    f := state.e
    g := state.f
    h := state.g }

/-- The word of the message after a window of sixteen. -/
def nextWord (window : List UInt32) : UInt32 :=
  let early := window.getD 1 0
  let late := window.getD 14 0
  let fromEarly :=
    rotate early 7 ^^^ rotate early 18 ^^^ (early >>> 3)
  let fromLate :=
    rotate late 17 ^^^ rotate late 19 ^^^ (late >>> 10)
  window.getD 0 0 + fromEarly + window.getD 9 0 + fromLate

/-- The rounds with the given constants, from a window of the message. -/
def runRounds :
    List UInt32 →
    (window : List UInt32) →
    State →
    State
  | [], _, state => state
  | constant :: rest, window, state =>
      runRounds rest
        (window.tail ++ [nextWord window])
        (state.round constant (window.getD 0 0))

/-- A state after a block of sixteen words. -/
def State.compress (block : List UInt32) (state : State) : State :=
  state.add (runRounds roundConstants block state)

/-- The bytes of a number, most significant first. -/
def bytesOf (number : Nat) : (count : Nat) → List UInt8
  | 0 => []
  | count + 1 =>
      UInt8.ofNat (number >>> (8 * count)) :: bytesOf number count

/-- A message with its end mark and its length, in whole blocks. -/
def padded (message : List UInt8) : List UInt8 :=
  message ++
    0x80 ::
      (List.replicate ((119 - message.length % 64) % 64) 0 ++
        bytesOf (8 * message.length) 8)

/-- Four bytes at a time as words; a rest of fewer bytes is dropped. -/
def wordsOf : List UInt8 → List UInt32
  | first :: second :: third :: fourth :: rest =>
      ((first.toUInt32 <<< 24) ||| (second.toUInt32 <<< 16) |||
        (third.toUInt32 <<< 8) ||| fourth.toUInt32) :: wordsOf rest
  | _ => []

/-- A state after a number of blocks, taken from a list of words. -/
def compressBlocks :
    (blocks : Nat) →
    List UInt32 →
    State →
    State
  | 0, _, state => state
  | blocks + 1, words, state =>
      compressBlocks blocks (words.drop 16)
        (state.compress (words.take 16))

/-- The state after a whole message. -/
def digest (message : List UInt8) : State :=
  let words := wordsOf (padded message)
  compressBlocks (words.length / 16) words State.initial

def hexOfWord (word : UInt32) : List Char :=
  let digits := Nat.toDigits 16 word.toNat
  List.replicate (8 - digits.length) '0' ++ digits

/-- The hash of a message in 64 hexadecimal digits. -/
def hexDigest (message : List UInt8) : String :=
  String.ofList ((digest message).words.flatMap hexOfWord)

end FollowOn.Sha256

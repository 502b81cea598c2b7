/-
The secure hash algorithm 1: a digest of twenty bytes.

The message is padded to whole blocks of sixty-four bytes; each block is
spread over eighty words, and eighty rounds mix them into five words of
state.
-/

namespace LatencyBench.Sha1

structure State where
  a : UInt32
  b : UInt32
  c : UInt32
  d : UInt32
  e : UInt32
deriving DecidableEq, Repr

def State.initial : State :=
  { a := 0x67452301
    b := 0xEFCDAB89
    c := 0x98BADCFE
    d := 0x10325476
    e := 0xC3D2E1F0 }

def rotateLeft (word : UInt32) (count : UInt32) : UInt32 :=
  (word <<< count) ||| (word >>> (32 - count))

def word (first second third fourth : UInt8) : UInt32 :=
  (first.toUInt32 <<< 24) ||| (second.toUInt32 <<< 16) |||
    (third.toUInt32 <<< 8) ||| fourth.toUInt32

def words : List UInt8 → List UInt32
  | first :: second :: third :: fourth :: rest =>
      word first second third fourth :: words rest
  | _ => []

def wordBytes (word : UInt32) : List UInt8 :=
  [(word >>> 24).toUInt8, (word >>> 16).toUInt8, (word >>> 8).toUInt8,
    word.toUInt8]

def lengthField (length : Nat) : List UInt8 :=
  let bits := length * 8
  (List.range 8).map fun index => (bits >>> (8 * (7 - index))).toUInt8

def padded (message : List UInt8) : List UInt8 :=
  let zeros := (119 - message.length % 64) % 64
  message ++ 0x80 :: List.replicate zeros 0 ++ lengthField message.length

/-- The word that follows in the spread, made of four of the last sixteen.
The spread is kept last word first. -/
def nextWord (spread : List UInt32) : UInt32 :=
  rotateLeft
    (spread.getD 2 0 ^^^ spread.getD 7 0 ^^^ spread.getD 13 0 ^^^
      spread.getD 15 0) 1

def extend : Nat → List UInt32 → List UInt32
  | 0, spread => spread
  | count + 1, spread => extend count (nextWord spread :: spread)

def spreadOf (block : List UInt32) : List UInt32 :=
  (extend 64 block.reverse).reverse

def mixing (state : State) (round : Nat) : UInt32 × UInt32 :=
  if round < 20 then
    ((state.b &&& state.c) ||| ((state.b ^^^ 0xFFFFFFFF) &&& state.d),
      0x5A827999)
  else if round < 40 then
    (state.b ^^^ state.c ^^^ state.d, 0x6ED9EBA1)
  else if round < 60 then
    ((state.b &&& state.c) ||| (state.b &&& state.d) |||
        (state.c &&& state.d),
      0x8F1BBCDC)
  else
    (state.b ^^^ state.c ^^^ state.d, 0xCA62C1D6)

def State.round (state : State) (index : Nat) (input : UInt32) : State :=
  let (mixed, constant) := mixing state index
  { a := rotateLeft state.a 5 + mixed + state.e + constant + input
    b := state.a
    c := rotateLeft state.b 30
    d := state.c
    e := state.d }

def State.rounds (state : State) (index : Nat) : List UInt32 → State
  | [] => state
  | input :: rest => (state.round index input).rounds (index + 1) rest

def State.absorb (state : State) (block : List UInt32) : State :=
  let mixed := state.rounds 0 (spreadOf block)
  { a := state.a + mixed.a
    b := state.b + mixed.b
    c := state.c + mixed.c
    d := state.d + mixed.d
    e := state.e + mixed.e }

def State.absorbAll (state : State) : Nat → List UInt32 → State
  | 0, _ => state
  | count + 1, words =>
      (state.absorb (words.take 16)).absorbAll count (words.drop 16)

def digest (message : List UInt8) : List UInt8 :=
  let input := words (padded message)
  let state := State.initial.absorbAll (input.length / 16) input
  [state.a, state.b, state.c, state.d, state.e].flatMap wordBytes

end LatencyBench.Sha1

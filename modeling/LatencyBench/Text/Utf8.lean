/-
UTF-8, read one byte at a time.

The state between two bytes says how many continuation bytes a sequence still
needs and within which bounds the next one must lie; the bounds of the second
byte exclude overlong forms, surrogates and code points past the last one.
Checking, decoding and decoding with replacement all run on this one reader,
so none of them depends on how the bytes were cut into pieces.
-/

namespace LatencyBench.Utf8

/-- Where the reader stands: between two characters, or inside a sequence
that still needs `needed + 1` bytes, the next one within the two bounds.
`code` holds the bits read so far. -/
inductive Reader where
  | between
  | inside (needed lower upper code : Nat)
deriving DecidableEq, Repr

inductive Advance where
  | refused
  | moved (reader : Reader)
  | completed (character : Char)
deriving DecidableEq, Repr

def Advance.ofFirst (byte : Nat) : Advance :=
  if byte < 0x80 then .completed (Char.ofNat byte)
  else if byte < 0xC2 then .refused
  else if byte < 0xE0 then .moved (.inside 0 0x80 0xBF (byte - 0xC0))
  else if byte = 0xE0 then .moved (.inside 1 0xA0 0xBF 0)
  else if byte = 0xED then .moved (.inside 1 0x80 0x9F 0xD)
  else if byte < 0xF0 then .moved (.inside 1 0x80 0xBF (byte - 0xE0))
  else if byte = 0xF0 then .moved (.inside 2 0x90 0xBF 0)
  else if byte < 0xF4 then .moved (.inside 2 0x80 0xBF (byte - 0xF0))
  else if byte = 0xF4 then .moved (.inside 2 0x80 0x8F 4)
  else .refused

def Reader.advance : Reader → UInt8 → Advance
  | .between, byte => .ofFirst byte.toNat
  | .inside needed lower upper code, byte =>
      if lower ≤ byte.toNat ∧ byte.toNat ≤ upper then
        let code := code * 64 + (byte.toNat - 0x80)
        match needed with
        | 0 => .completed (Char.ofNat code)
        | needed + 1 => .moved (.inside needed 0x80 0xBF code)
      else
        .refused

/-- The reader after some bytes, unless they cannot begin any text. -/
def Reader.scan (reader : Reader) : List UInt8 → Option Reader
  | [] => some reader
  | byte :: rest =>
      match reader.advance byte with
      | .refused => none
      | .moved next => next.scan rest
      | .completed _ => Reader.between.scan rest

def isValid (bytes : List UInt8) : Bool :=
  Reader.between.scan bytes == some .between

def replacement : Char := Char.ofNat 0xFFFD

/-- Reads a byte with replacement: a sequence that cannot go on is replaced
by one character, and the byte that broke it is read afresh. -/
def Reader.advanceLossy (reader : Reader) (byte : UInt8) :
    Reader × List Char :=
  let afresh : Reader × List Char :=
    match Advance.ofFirst byte.toNat with
    | .refused => (.between, [replacement])
    | .moved next => (next, [])
    | .completed character => (.between, [character])
  match reader with
  | .between => afresh
  | .inside needed lower upper code =>
      match (Reader.inside needed lower upper code).advance byte with
      | .refused => (afresh.1, replacement :: afresh.2)
      | .moved next => (next, [])
      | .completed character => (.between, [character])

/-- Decodes from a state; an unfinished sequence at the end is replaced. -/
def Reader.decodeLossy (reader : Reader) : List UInt8 → List Char
  | [] =>
      match reader with
      | .between => []
      | .inside .. => [replacement]
  | byte :: rest =>
      let (next, characters) := reader.advanceLossy byte
      characters ++ next.decodeLossy rest

/-- The text of bytes, with a replacement character for each longest run of
bytes that begins a character without completing it. -/
def decodeLossy (bytes : List UInt8) : String :=
  String.ofList (Reader.between.decodeLossy bytes)

def encode (text : String) : List UInt8 :=
  text.toUTF8.toList

end LatencyBench.Utf8

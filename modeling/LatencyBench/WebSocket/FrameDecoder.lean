/-
Reading frames one byte at a time.

Between two bytes the decoder is inside a header or inside a payload.  A
header is looked at when it is complete; a frame is handed out with its last
byte.  Because the decoder moves by single bytes, it cannot matter how they
were cut into pieces on the way.
-/

import LatencyBench.WebSocket.Frame

namespace LatencyBench.WebSocket

structure Announcement where
  header : FrameHeader
  length : Nat
deriving DecidableEq, Repr

/-- How many bytes give the length behind a marker. -/
def extraLengthBytes (marker : Nat) : Nat :=
  if marker = 126 then 2
  else if marker = 127 then 8
  else 0

def MaskKey.ofBytes? : List UInt8 → Option MaskKey
  | [first, second, third, fourth] =>
      some
        { first := first
          second := second
          third := third
          fourth := fourth }
  | _ => none

/-- What a header announces, once all of its bytes are there. -/
def Announcement.ofBytes? : List UInt8 → Option Announcement
  | first :: second :: rest =>
      let marker := (second &&& 0x7F).toNat
      let extra := extraLengthBytes marker
      let masked := second &&& 0x80 != 0
      if rest.length = extra + (if masked then 4 else 0) then
        some
          { header :=
              { isFinal := first &&& 0x80 != 0
                reserved := (first >>> 4) &&& 0x07
                opcode := .ofNumber (first &&& 0x0F)
                mask := MaskKey.ofBytes? (rest.drop extra) }
            length :=
              if extra = 0 then marker else ofBigEndian (rest.take extra) }
      else none
  | _ => none

def maxFrameLength : Nat := 16777216

inductive FrameError where
  | reservedOpcode (number : UInt8)
  | tooLong (length : Nat)
deriving DecidableEq, Repr

def Announcement.error? (announcement : Announcement) : Option FrameError :=
  match announcement.header.opcode with
  | .reserved number => some (.reservedOpcode number)
  | _ =>
      if maxFrameLength < announcement.length then
        some (.tooLong announcement.length)
      else none

/-- Where the decoder stands between two bytes.  `found` holds the payload
read so far, still masked; `missing` is one less than the bytes it lacks. -/
inductive FrameDecoder where
  | inHeader (seen : List UInt8)
  | inPayload (header : FrameHeader) (found : Array UInt8) (missing : Nat)
  | broken
deriving DecidableEq, Repr

inductive Decoded where
  | nothing
  | frame (frame : Frame)
  | error (error : FrameError)
deriving DecidableEq, Repr

def Frame.ofWire (header : FrameHeader) (wire : List UInt8) : Frame :=
  { header := header
    payload :=
      match header.mask with
      | none => wire
      | some key => key.apply wire }

namespace FrameDecoder

def start : FrameDecoder := .inHeader []

def enter (announcement : Announcement) : FrameDecoder × Decoded :=
  match announcement.error? with
  | some error => (.broken, .error error)
  | none =>
      match announcement.length with
      | 0 => (start, .frame (.ofWire announcement.header []))
      | missing + 1 =>
          (.inPayload announcement.header #[] missing, .nothing)

def step : FrameDecoder → UInt8 → FrameDecoder × Decoded
  | .inHeader seen, byte =>
      let seen := seen ++ [byte]
      match Announcement.ofBytes? seen with
      | none => (.inHeader seen, .nothing)
      | some announcement => enter announcement
  | .inPayload header found missing, byte =>
      let found := found.push byte
      match missing with
      | 0 => (start, .frame (.ofWire header found.toList))
      | missing + 1 => (.inPayload header found missing, .nothing)
  | .broken, _ => (.broken, .nothing)

/-- What a decoder makes of a list of bytes: where it stands afterwards and
what the bytes completed, in order. -/
def feed (decoder : FrameDecoder) : List UInt8 → FrameDecoder × List Decoded
  | [] => (decoder, [])
  | byte :: rest =>
      let (next, decoded) := decoder.step byte
      let (last, more) := next.feed rest
      (last, decoded :: more)

end FrameDecoder

end LatencyBench.WebSocket

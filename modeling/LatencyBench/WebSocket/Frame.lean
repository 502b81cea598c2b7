/-
Frames: the unit in which WebSocket data travels, and their bytes.

A frame has a header of two to fourteen bytes and a payload.  The header says
whether the frame ends its message, what kind of frame it is, how long the
payload is, in one of three widths, and with which key it is masked, if it is.
Masking combines each byte of the payload with one of the four bytes of the
key, in turn, and undoes itself.
-/

namespace LatencyBench.WebSocket

/-- What a frame is for.  The numbers that no kind has are reserved. -/
inductive Opcode where
  | continuation
  | text
  | binary
  | close
  | ping
  | pong
  | reserved (number : UInt8)
deriving DecidableEq, Repr

def Opcode.ofNumber (number : UInt8) : Opcode :=
  if number = 0 then .continuation
  else if number = 1 then .text
  else if number = 2 then .binary
  else if number = 8 then .close
  else if number = 9 then .ping
  else if number = 10 then .pong
  else .reserved number

def Opcode.number : Opcode → UInt8
  | .continuation => 0
  | .text => 1
  | .binary => 2
  | .close => 8
  | .ping => 9
  | .pong => 10
  | .reserved number => number

def Opcode.isControl (opcode : Opcode) : Bool :=
  decide (8 ≤ opcode.number)

/-! ### Masking -/

structure MaskKey where
  first : UInt8
  second : UInt8
  third : UInt8
  fourth : UInt8
deriving DecidableEq, Repr, Inhabited

namespace MaskKey

def bytes (key : MaskKey) : List UInt8 :=
  [key.first, key.second, key.third, key.fourth]

def turned (key : MaskKey) : MaskKey :=
  { first := key.second
    second := key.third
    third := key.fourth
    fourth := key.first }

def apply (key : MaskKey) : List UInt8 → List UInt8
  | [] => []
  | byte :: rest => (byte ^^^ key.first) :: key.turned.apply rest

theorem apply_apply (key : MaskKey) (bytes : List UInt8) :
    key.apply (key.apply bytes) = bytes := by
  induction bytes generalizing key with
  | nil => rfl
  | cons byte rest inductionHypothesis =>
      simp only [apply, inductionHypothesis, List.cons.injEq, and_true]
      rw [UInt8.xor_assoc, UInt8.xor_self, UInt8.xor_zero]

@[simp] theorem length_apply (key : MaskKey) (bytes : List UInt8) :
    (key.apply bytes).length = bytes.length := by
  induction bytes generalizing key with
  | nil => rfl
  | cons byte rest inductionHypothesis =>
      simp [apply, inductionHypothesis]

end MaskKey

/-! ### Headers and frames -/

/-- The header of a frame without the length.  `reserved` holds the three
bits that are kept for extensions, as a number. -/
structure FrameHeader where
  isFinal : Bool
  reserved : UInt8
  opcode : Opcode
  mask : Option MaskKey
deriving DecidableEq, Repr

structure Frame where
  header : FrameHeader
  payload : List UInt8
deriving DecidableEq, Repr

def bigEndian : Nat → Nat → List UInt8
  | 0, _ => []
  | width + 1, number => bigEndian width (number / 256) ++ [number.toUInt8]

def ofBigEndian (bytes : List UInt8) : Nat :=
  bytes.foldl (fun number byte => number * 256 + byte.toNat) 0

/-- The seven bits that give a length, or say how wide it is given. -/
def lengthMarker (length : Nat) : UInt8 :=
  if length < 126 then length.toUInt8
  else if length < 65536 then 126
  else 127

def lengthBytes (length : Nat) : List UInt8 :=
  if length < 126 then []
  else if length < 65536 then bigEndian 2 length
  else bigEndian 8 length

def FrameHeader.firstByte (header : FrameHeader) : UInt8 :=
  let finalBit : UInt8 := if header.isFinal then 0x80 else 0
  finalBit ||| (header.reserved <<< 4) ||| header.opcode.number

def FrameHeader.encode (header : FrameHeader) (length : Nat) : List UInt8 :=
  let maskBit : UInt8 := if header.mask.isSome then 0x80 else 0
  [header.firstByte, maskBit ||| lengthMarker length] ++
    lengthBytes length ++
    match header.mask with
    | none => []
    | some key => key.bytes

def Frame.encode (frame : Frame) : List UInt8 :=
  frame.header.encode frame.payload.length ++
    match frame.header.mask with
    | none => frame.payload
    | some key => key.apply frame.payload

def Frame.whole (opcode : Opcode) (mask : Option MaskKey)
    (payload : List UInt8) : Frame :=
  { header :=
      { isFinal := true
        reserved := 0
        opcode := opcode
        mask := mask }
    payload := payload }

end LatencyBench.WebSocket

/-
Messages: what the frames of a connection amount to.

A message travels in one frame or in several, with control frames between
them.  The assembler holds the message that has begun; it takes one frame at
a time and says what the frame amounts to, or which rule it breaks.  A text
must be UTF-8 from its first fragment on: bytes that cannot begin any text
are refused with the fragment that brings them.
-/

import LatencyBench.Text.Utf8
import LatencyBench.WebSocket.FrameDecoder

namespace LatencyBench.WebSocket

/-- Which end of a connection someone is.  A server must be sent masked
frames, a client must not. -/
inductive Role where
  | server
  | client
deriving DecidableEq, Repr

inductive MessageKind where
  | text
  | binary
deriving DecidableEq, Repr

def MessageKind.name : MessageKind → String
  | .text => "TEXT"
  | .binary => "BINARY"

def MessageKind.opcode : MessageKind → Opcode
  | .text => .text
  | .binary => .binary

inductive Violation where
  | frame (error : FrameError)
  | reservedBits
  | unmasked
  | masked
  | fragmentedControl
  | controlTooBig
  | closeOfOneByte
  | nothingToContinue
  | unfinished (next : MessageKind)
  | messageTooLong (length : Nat)
  | notText
deriving DecidableEq, Repr

def maxMessageLength : Nat := 67108864

def tooLongText (length limit : Nat) : String :=
  "Space limit exceeded: Message too long: " ++ toString length ++
    " > " ++ toString limit

def protocolText (rule : String) : String :=
  "WebSocket protocol error: " ++ rule

def Violation.message : Violation → String
  | .frame (.reservedOpcode number) =>
      protocolText ("Encountered invalid opcode: " ++ toString number.toNat)
  | .frame (.tooLong length) => tooLongText length maxFrameLength
  | .reservedBits => protocolText "Reserved bits are non-zero"
  | .unmasked => protocolText "Received an unmasked frame from client"
  | .masked => protocolText "Received a masked frame from server"
  | .fragmentedControl => protocolText "Fragmented control frame"
  | .controlTooBig =>
      protocolText
        "Control frame too big (payload must be 125 bytes or less)"
  | .closeOfOneByte => protocolText "Invalid close sequence"
  | .nothingToContinue =>
      protocolText "Continue frame but nothing to continue"
  | .unfinished next =>
      protocolText
        ("While waiting for more fragments received: " ++ next.name)
  | .messageTooLong length => tooLongText length maxMessageLength
  | .notText => "UTF-8 encoding error"

/-! ### Closing -/

structure CloseNote where
  code : Nat
  reason : List UInt8
deriving DecidableEq, Repr

def closeCodeAllowed (code : Nat) : Bool :=
  (1000 ≤ code && code ≤ 1003) || (1007 ≤ code && code ≤ 1013) ||
    (3000 ≤ code && code ≤ 4999)

/-- What the payload of a close frame says; an empty one says nothing. -/
def CloseNote.ofPayload :
    List UInt8 → Except Violation (Option CloseNote)
  | [] => .ok none
  | [_] => .error .closeOfOneByte
  | high :: low :: reason =>
      if Utf8.isValid reason then
        .ok
          (some
            { code := high.toNat * 256 + low.toNat
              reason := reason })
      else .error .notText

/-- The payload that answers a close frame: the same code and reason, or a
complaint about a code that may not be used. -/
def CloseNote.answer : Option CloseNote → List UInt8
  | none => []
  | some note =>
      if closeCodeAllowed note.code then
        bigEndian 2 note.code ++ note.reason
      else bigEndian 2 1002 ++ Utf8.encode "Protocol violation"

/-! ### Assembling -/

/-- A message that has begun.  `utf8` is where reading it as text stands. -/
structure Fragments where
  kind : MessageKind
  payload : List UInt8
  utf8 : Utf8.Reader
deriving DecidableEq, Repr

inductive Delivery where
  | nothing
  | message (kind : MessageKind) (payload : List UInt8)
  | ping (payload : List UInt8)
  | pong (payload : List UInt8)
  | close (answer : List UInt8)
  | violation (violation : Violation)
deriving DecidableEq, Repr

def Fragments.empty (kind : MessageKind) : Fragments :=
  { kind := kind
    payload := []
    utf8 := .between }

def Fragments.extend (fragments : Fragments) (payload : List UInt8) :
    Except Violation Fragments :=
  let length := fragments.payload.length + payload.length
  if maxMessageLength < length then .error (.messageTooLong length)
  else
    match fragments.kind with
    | .binary =>
        .ok { fragments with payload := fragments.payload ++ payload }
    | .text =>
        match fragments.utf8.scan payload with
        | none => .error .notText
        | some utf8 =>
            .ok
              { fragments with
                payload := fragments.payload ++ payload
                utf8 := utf8 }

/-- The finished message; a text must not end inside a character. -/
def Fragments.complete (fragments : Fragments) : Delivery :=
  if fragments.utf8 = .between then
    .message fragments.kind fragments.payload
  else .violation .notText

structure Assembler where
  role : Role
  begun : Option Fragments
deriving DecidableEq, Repr

namespace Assembler

def start (role : Role) : Assembler :=
  { role := role
    begun := none }

def maskViolation? (assembler : Assembler) (frame : Frame) :
    Option Violation :=
  match assembler.role, frame.header.mask with
  | .server, none => some .unmasked
  | .client, some _ => some .masked
  | _, _ => none

def control (opcode : Opcode) (frame : Frame) : Delivery :=
  if !frame.header.isFinal then .violation .fragmentedControl
  else if 125 < frame.payload.length then .violation .controlTooBig
  else
    match opcode with
    | .ping => .ping frame.payload
    | .pong => .pong frame.payload
    | _ =>
        match CloseNote.ofPayload frame.payload with
        | .ok note => .close (CloseNote.answer note)
        | .error violation => .violation violation

def add (assembler : Assembler) (fragments : Fragments) (frame : Frame) :
    Assembler × Delivery :=
  match fragments.extend frame.payload with
  | .error violation => (assembler, .violation violation)
  | .ok fragments =>
      if frame.header.isFinal then
        ({ assembler with begun := none }, fragments.complete)
      else ({ assembler with begun := some fragments }, .nothing)

/-- A frame that begins a message. -/
def begin (assembler : Assembler) (kind : MessageKind) (frame : Frame) :
    Assembler × Delivery :=
  match assembler.begun with
  | some _ => (assembler, .violation (.unfinished kind))
  | none => assembler.add (.empty kind) frame

def proceed (assembler : Assembler) (frame : Frame) :
    Assembler × Delivery :=
  match assembler.begun with
  | none => (assembler, .violation .nothingToContinue)
  | some fragments => assembler.add fragments frame

def take (assembler : Assembler) (frame : Frame) : Assembler × Delivery :=
  if frame.header.reserved ≠ 0 then (assembler, .violation .reservedBits)
  else
    match assembler.maskViolation? frame with
    | some violation => (assembler, .violation violation)
    | none =>
        match frame.header.opcode with
        | .continuation => assembler.proceed frame
        | .text => assembler.begin .text frame
        | .binary => assembler.begin .binary frame
        | .reserved number =>
            (assembler, .violation (.frame (.reservedOpcode number)))
        | opcode => (assembler, control opcode frame)

end Assembler

/-! ### From bytes to deliveries -/

structure Receiver where
  decoder : FrameDecoder
  assembler : Assembler
deriving DecidableEq, Repr

namespace Receiver

def start (role : Role) : Receiver :=
  { decoder := .start
    assembler := .start role }

def step (receiver : Receiver) (byte : UInt8) : Receiver × Delivery :=
  let (decoder, decoded) := receiver.decoder.step byte
  let next := { receiver with decoder := decoder }
  match decoded with
  | .nothing => (next, .nothing)
  | .error error => (next, .violation (.frame error))
  | .frame frame =>
      let (assembler, delivery) := receiver.assembler.take frame
      ({ next with assembler := assembler }, delivery)

end Receiver

end LatencyBench.WebSocket

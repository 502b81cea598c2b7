/-
Attaches a session to the sockets of the machine.

Everything that is decided is decided by the session; here bytes are carried
between it and the operating system, and the clock is read.
-/

import LatencyBench.Session
import Std.Internal.UV.TCP

namespace LatencyBench.Launcher

open Net Std.Internal.UV

/-! ### Errors and addresses of the system -/

def systemCode? : IO.Error → Option UInt32
  | .alreadyExists _ code _ => some code
  | .otherError code _ => some code
  | .resourceBusy code _ => some code
  | .resourceVanished code _ => some code
  | .unsupportedOperation code _ => some code
  | .hardwareFault code _ => some code
  | .unsatisfiedConstraints code _ => some code
  | .illegalOperation code _ => some code
  | .protocolError code _ => some code
  | .timeExpired code _ => some code
  | .interrupted _ code _ => some code
  | .noFileOrDirectory _ code _ => some code
  | .invalidArgument _ code _ => some code
  | .permissionDenied _ code _ => some code
  | .resourceExhausted _ code _ => some code
  | .inappropriateType _ code _ => some code
  | .noSuchThing _ code _ => some code
  | .unexpectedEof => none
  | .userError _ => none

def ofSystemError (error : IO.Error) : IoError :=
  match systemCode? error with
  | some code => .ofOs code.toInt32.toInt.natAbs
  | none =>
      { kind := .other
        text := toString error }

def toSystemAddress (address : SocketAddress) : Std.Net.SocketAddress :=
  match address.ip with
  | .v4 first second third fourth =>
      .v4
        { addr := { octets := #v[first, second, third, fourth] }
          port := address.port }
  | .v6 groups =>
      .v6
        { addr := { segments := groups }
          port := address.port }

def ofSystemAddress : Std.Net.SocketAddress → SocketAddress
  | .v4 address =>
      let octets := address.addr.octets
      { ip := .v4 octets[0] octets[1] octets[2] octets[3]
        port := address.port }
  | .v6 address =>
      { ip := .v6 address.addr.segments
        port := address.port }

/-! ### Sockets -/

abbrev PendingRead := IO.Promise (Except IO.Error (Option ByteArray))

/-- The sockets behind a session.  The listener is let go of once a peer has
connected. -/
structure Attachment where
  listener : Option TCP.Socket
  peer : Option TCP.Socket
  reading : Option PendingRead
  finished : Bool

def backlog : UInt32 := 1024

def readSize : UInt64 := 65536

namespace Attachment

def openListener (config : Config) :
    IO (Except StartError (Attachment × SocketAddress)) := do
  try
    let listener ← TCP.Socket.new
    listener.bind (toSystemAddress config.listenAddress)
    listener.listen backlog
    let found ← listener.getSockName
    return .ok
      ({ listener := some listener
         peer := none
         reading := none
         finished := false },
       ofSystemAddress found)
  catch error =>
    return .error (.bind config.listenAddress (ofSystemError error))

variable {φ : Type}

def apply (view : Frontend φ) (session : Session φ) (step : EndpointStep) :
    Session φ :=
  session.step view (.beside (.endpoint step))

def letIn (view : Frontend φ) (attachment : Attachment)
    (session : Session φ) : IO (Attachment × Session φ) := do
  let some listener := attachment.listener
    | return (attachment, session)
  if !session.world.endpoint.isListening then
    return ({ attachment with listener := none }, session)
  match ← listener.tryAccept with
  | .error error =>
      let fault := EndpointStep.acceptFails (ofSystemError error)
      return ({ attachment with listener := none }, apply view session fault)
  | .ok none => return (attachment, session)
  | .ok (some peer) =>
      let reading ← peer.recv? readSize
      let attached : Attachment :=
        { attachment with
          listener := none
          peer := some peer
          reading := some reading }
      return (attached, apply view session (.connect true))

def takeIn (view : Frontend φ) (attachment : Attachment)
    (session : Session φ) : IO (Attachment × Session φ) := do
  let (some peer, some reading) := (attachment.peer, attachment.reading)
    | return (attachment, session)
  if !(← IO.hasFinished reading.result?) then
    return (attachment, session)
  let ended : Attachment := { attachment with reading := none }
  match reading.result?.get with
  | none => return (ended, session)
  | some (.error _) => return (ended, apply view session .reset)
  | some (.ok none) => return (ended, apply view session .finish)
  | some (.ok (some bytes)) =>
      let next ← peer.recv? readSize
      let arrived := EndpointStep.arrive bytes.data.toList
      return ({ attachment with reading := some next },
        apply view session arrived)

/-- Does something with a socket whose far end may be gone; reading tells of
that sooner or later. -/
def attempt {α : Type} (action : IO α) : IO Unit := do
  try
    discard action
  catch _ =>
    return

def carryOut (attachment : Attachment) (session : Session φ) :
    IO (Attachment × Session φ) := do
  let some peer := attachment.peer
    | return (attachment, session)
  let endpoint := session.world.endpoint
  let some socket := endpoint.socket
    | return (attachment, session)
  let (bytes, collected) := socket.collect socket.inTransit.length
  if !bytes.isEmpty then
    attempt (peer.send #[ByteArray.mk bytes.toArray])
  let session : Session φ :=
    { session with
      world :=
        { session.world with
          endpoint := { endpoint with socket := some collected } } }
  if endpoint.outboundOver && !attachment.finished then
    attempt peer.shutdown
    return ({ attachment with finished := true }, session)
  return (attachment, session)

/-- Brings a session up to the present: the clock, a peer that connected, what
arrived, the tasks of the transport, and what is to be sent. -/
def pump (view : Frontend φ) (begun : Nat) (attachment : Attachment)
    (session : Session φ) : IO (Attachment × Session φ) := do
  let now ← IO.monoNanosNow
  let span := now - begun - session.world.now
  let session := session.step view (.beside (.pass span))
  let (attachment, session) ← attachment.letIn view session
  let (attachment, session) ← attachment.takeIn view session
  attachment.carryOut (Run.rest Wire.settleEndpoint session)

end Attachment

end LatencyBench.Launcher

/-
The transport of one session: a listener that accepts a single connection,
and that connection once it is set up.

The accepting task waits for a peer, over WebSocket for its upgrade as well,
and then ends with exactly one event: the connection, a cancellation, or a
fault.  Everything that can happen is a step: what the peer does, and one
turn of one task.  A step that cannot be taken changes nothing, so any list of
steps is a possible course of events.
-/

import LatencyBench.Connection.Link
import LatencyBench.WebSocket.Upgrade

namespace LatencyBench

open Net WebSocket

inductive Accepting where
  | waiting
  | upgrading (upgrade : Upgrade)
  | ended
deriving DecidableEq, Repr

/-- The transport of a session.  `addressKnown` says whether the address of
the peer can still be read when its connection is accepted. -/
structure Endpoint where
  transport : Transport
  accepting : Accepting
  addressKnown : Bool
  socket : Option Socket
  link : Option Link
  acceptCancelled : Bool
  sessionCancelled : Bool
  halted : Bool
deriving DecidableEq, Repr

/-- What can happen to a transport.  The first five are done by the peer; each
of the others is one turn of a task. -/
inductive EndpointStep where
  | connect (addressKnown : Bool)
  | arrive (bytes : List UInt8)
  | finish
  | hangUp
  | reset
  | accept
  | acceptFails (error : IoError)
  | giveUpAccepting
  | upgrade
  | receive (most : Nat)
  | stopReceiving
  | send (room : Nat)
  | stopSending
deriving DecidableEq, Repr

namespace Endpoint

def start (transport : Transport) : Endpoint :=
  { transport := transport
    accepting := .waiting
    addressKnown := true
    socket := none
    link := none
    acceptCancelled := false
    sessionCancelled := false
    halted := false }

def connection (endpoint : Endpoint) : Connection :=
  { number := 0
    transport := endpoint.transport }

/-! ### The accepting task -/

def isListening (endpoint : Endpoint) : Bool :=
  decide (endpoint.accepting = .waiting) && !endpoint.halted

def endAccepting (endpoint : Endpoint) (event : Event) :
    Endpoint × List Event :=
  ({ endpoint with accepting := .ended }, [event])

def establish (endpoint : Endpoint) : Endpoint × List Event :=
  { endpoint with
    link :=
      some
        { Link.start endpoint.transport with
          cancelled := endpoint.sessionCancelled } }.endAccepting
    (.established endpoint.connection)

/-- Takes the peer that has connected; one whose address cannot be read any
more counts as a cancellation. -/
def accept (endpoint : Endpoint) : Endpoint × List Event :=
  match endpoint.accepting, endpoint.socket with
  | .waiting, some _ =>
      if !endpoint.addressKnown then endpoint.endAccepting .cancelled
      else
        match endpoint.transport with
        | .rawTcp => endpoint.establish
        | .webSocket =>
            ({ endpoint with accepting := .upgrading .start }, [])
  | _, _ => (endpoint, [])

def acceptFails (endpoint : Endpoint) (error : IoError) :
    Endpoint × List Event :=
  match endpoint.accepting with
  | .waiting => endpoint.endAccepting (.failed (.accept error.text))
  | _ => (endpoint, [])

def acceptingCalledOff (endpoint : Endpoint) : Bool :=
  endpoint.acceptCancelled || endpoint.sessionCancelled

def giveUpAccepting (endpoint : Endpoint) : Endpoint × List Event :=
  if endpoint.accepting ≠ .ended ∧ endpoint.acceptingCalledOff then
    endpoint.endAccepting .cancelled
  else (endpoint, [])

def refuseUpgrade (endpoint : Endpoint) (error : UpgradeError) :
    Endpoint × List Event :=
  endpoint.endAccepting (.failed (.handshake error.message))

def agreeUpgrade (endpoint : Endpoint) (socket : Socket)
    (response : List UInt8) : Endpoint × List Event :=
  match socket.write response with
  | (.error error, socket) =>
      { endpoint with socket := some socket }.refuseUpgrade (.io error)
  | (.ok (), socket) =>
      { endpoint with socket := some socket }.establish

def upgradePiece (endpoint : Endpoint) (upgrade : Upgrade)
    (socket : Socket) : Endpoint × List Event :=
  match socket.endReached with
  | some .finished => endpoint.refuseUpgrade .unfinished
  | some (.failed error) => endpoint.refuseUpgrade (.io error)
  | none =>
      let (piece, socket) := socket.take pieceSize
      if piece.isEmpty then (endpoint, [])
      else
        match upgrade.takePiece piece with
        | .going upgrade =>
            ({ endpoint with
                accepting := .upgrading upgrade
                socket := some socket },
              [])
        | .agreed response => endpoint.agreeUpgrade socket response
        | .refused error =>
            { endpoint with socket := some socket }.refuseUpgrade error

def upgrade (endpoint : Endpoint) : Endpoint × List Event :=
  match endpoint.accepting, endpoint.socket with
  | .upgrading upgrade, some socket => endpoint.upgradePiece upgrade socket
  | _, _ => (endpoint, [])

/-! ### The connection -/

def onLink (endpoint : Endpoint) (turn : Link → Socket → LinkStep) :
    Endpoint × List Event :=
  match endpoint.link, endpoint.socket with
  | some link, some socket =>
      let turned := turn link socket
      ({ endpoint with
          link := some turned.link
          socket := some turned.socket },
        turned.events)
  | _, _ => (endpoint, [])

def perform (endpoint : Endpoint) (made : ConnectionCall) :
    Endpoint × List Event :=
  match endpoint.link with
  | none => (endpoint, [])
  | some link =>
      if made.connection = endpoint.connection then
        let (link, events) := link.perform made.call
        ({ endpoint with link := some link }, events)
      else (endpoint, [])

/-- Whether the peer has seen, or can see, the end of what is sent to it. -/
def outboundOver (endpoint : Endpoint) : Bool :=
  match endpoint.link with
  | some link => link.outboundOver
  | none => decide (endpoint.accepting = .ended)

/-! ### Calling off -/

def cancelAccept (endpoint : Endpoint) : Endpoint :=
  { endpoint with acceptCancelled := true }

/-- Calls off everything that waits. -/
def cancelSession (endpoint : Endpoint) : Endpoint :=
  { endpoint with
    sessionCancelled := true
    link := endpoint.link.map fun link => { link with cancelled := true } }

def halt (endpoint : Endpoint) : Endpoint :=
  { endpoint with
    halted := true
    accepting := .ended
    link := endpoint.link.map Link.halt }

/-! ### Steps -/

def onSocket (endpoint : Endpoint) (change : Socket → Socket) : Endpoint :=
  { endpoint with socket := endpoint.socket.map change }

def connect (endpoint : Endpoint) (addressKnown : Bool) : Endpoint :=
  if endpoint.isListening ∧ endpoint.socket.isNone then
    { endpoint with
      socket := some .fresh
      addressKnown := addressKnown }
  else endpoint

def taskTurn (endpoint : Endpoint) (now : Instant) :
    EndpointStep → Endpoint × List Event
  | .accept => endpoint.accept
  | .acceptFails error => endpoint.acceptFails error
  | .giveUpAccepting => endpoint.giveUpAccepting
  | .upgrade => endpoint.upgrade
  | .receive most =>
      endpoint.onLink fun link socket => link.receive socket most now
  | .stopReceiving =>
      endpoint.onLink fun link socket =>
        { link := link.stopReceiving
          socket := socket }
  | .send room => endpoint.onLink fun link socket => link.send socket room
  | .stopSending =>
      endpoint.onLink fun link socket => link.stopSending socket
  | _ => (endpoint, [])

/-- One step at a moment.  Without a runtime the tasks make no turns. -/
def turn (endpoint : Endpoint) (now : Instant) (step : EndpointStep) :
    Endpoint × List Event :=
  match step with
  | .connect addressKnown => (endpoint.connect addressKnown, [])
  | .arrive bytes =>
      (endpoint.onSocket fun socket => socket.arrive bytes, [])
  | .finish => (endpoint.onSocket Socket.finish, [])
  | .hangUp => (endpoint.onSocket Socket.hangUp, [])
  | .reset => (endpoint.onSocket Socket.reset, [])
  | _ =>
      if endpoint.halted then (endpoint, [])
      else endpoint.taskTurn now step

def turns (endpoint : Endpoint) (now : Instant) :
    List EndpointStep → Endpoint × List Event
  | [] => (endpoint, [])
  | step :: rest =>
      let (next, events) := endpoint.turn now step
      let (last, more) := next.turns now rest
      (last, events ++ more)

/-! ### Running everything to rest -/

def backlog (endpoint : Endpoint) : Nat :=
  match endpoint.socket with
  | none => 0
  | some socket => socket.inbound.length

def unsent (endpoint : Endpoint) : Nat × Nat :=
  match endpoint.link with
  | none => (0, 0)
  | some link =>
      let pending :=
        match link.sending with
        | .writing _ unsent => unsent.length
        | _ => 0
      (link.outbox.flatten.length + 14 * link.outbox.length + pending,
        link.outbox.length + 1)

def acceptingTurns (endpoint : Endpoint) : List EndpointStep :=
  [.giveUpAccepting, .accept] ++
    List.replicate (endpoint.backlog / pieceSize + 2) .upgrade

def linkTurns (endpoint : Endpoint) : List EndpointStep :=
  let (bytes, payloads) := endpoint.unsent
  [.stopSending, .stopReceiving] ++ List.replicate payloads (.send bytes) ++
    [.receive endpoint.backlog]

def settle (endpoint : Endpoint) (now : Instant) : Endpoint × List Event :=
  let (accepted, events) := endpoint.turns now endpoint.acceptingTurns
  let (settled, more) := accepted.turns now accepted.linkTurns
  (settled, events ++ more)

end Endpoint

end LatencyBench

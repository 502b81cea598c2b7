/-
A live connection: a handle, and the two tasks that do its input and output.

The sending task takes payloads from an outbox, one at a time, and reports
each one when its last byte is written.  The receiving task is parked until
the connection is armed.  Closing releases both, whatever they are doing;
letting go of the handle closes it.
-/

import LatencyBench.Connection.Intake
import LatencyBench.Machine
import LatencyBench.Net.Stream

namespace LatencyBench

open Net

inductive Receiving where
  | parked
  | running
  | ended
deriving DecidableEq, Repr

/-- What the sending task is doing: waiting for a payload, in the middle of
one, or nothing any more. -/
inductive Sending where
  | waiting
  | writing (payload : Payload) (unsent : List UInt8)
  | ended
deriving DecidableEq, Repr

/-- What there is to say about the end: the peer has said nothing of it, or
its farewell is still owed an answer, or everything is said. -/
inductive Farewell where
  | unsaid
  | owed (answer : List UInt8)
  | silent
deriving DecidableEq, Repr

structure Link where
  transport : Transport
  closed : Bool
  cancelled : Bool
  receiving : Receiving
  intake : Intake
  sending : Sending
  outbox : List Payload
  farewell : Farewell
deriving DecidableEq, Repr

/-- The bytes of a payload on a transport: over WebSocket a text message if
it is text, and else a binary one. -/
def Transport.wireBytes : Transport → Payload → List UInt8
  | .rawTcp, payload => payload
  | .webSocket, payload =>
      let opcode : WebSocket.Opcode :=
        if Utf8.isValid payload then .text else .binary
      (WebSocket.Frame.whole opcode none payload).encode

structure LinkStep where
  link : Link
  socket : Socket
  events : List Event := []

namespace Link

def start (transport : Transport) : Link :=
  { transport := transport
    closed := false
    cancelled := false
    receiving := .parked
    intake := .start transport
    sending := .waiting
    outbox := []
    farewell := .unsaid }

/-! ### The handle -/

def arm (link : Link) : Link :=
  if link.closed then link
  else
    match link.receiving with
    | .parked => { link with receiving := .running }
    | _ => link

/-- Hands a payload to the sending task, or reports that it is gone. -/
def post (link : Link) (payload : Payload) : Link × List Event :=
  if link.closed ∨ link.sending = .ended then (link, [.failed .closed])
  else ({ link with outbox := link.outbox ++ [payload] }, [])

def close (link : Link) : Link :=
  if link.closed then link
  else
    { link with
      closed := true
      cancelled := true
      receiving := .ended
      sending := .ended
      outbox := [] }

def perform (link : Link) : Call → Link × List Event
  | .arm => (link.arm, [])
  | .send payload => link.post payload
  | .close => (link.close, [])
  | .drop => (link.close, [])

/-- Whether nothing more can reach the peer: over raw TCP when the sending
task has ended, over WebSocket when both have. -/
def outboundOver (link : Link) : Bool :=
  match link.transport with
  | .rawTcp => decide (link.sending = .ended)
  | .webSocket =>
      decide (link.sending = .ended ∧ link.receiving = .ended)

/-! ### The receiving task -/

def endReceiving (link : Link) (socket : Socket) (fault : Fault) : LinkStep :=
  { link := { link with receiving := .ended }
    socket := socket
    events := [.failed fault] }

/-- Writes an answer; while a payload is being written, behind it. -/
def answer (link : Link) (socket : Socket) (bytes : List UInt8) :
    Except IoError Unit × Link × Socket :=
  match link.sending with
  | .writing payload unsent =>
      (.ok (),
        { link with sending := .writing payload (unsent ++ bytes) },
        socket)
  | _ =>
      let (result, socket) := socket.write bytes
      (result, link, socket)

/-- Hears that the peer takes its leave.  The answer is owed to it, and goes
behind the payload that is being written, if there is one; then nothing is
left to say. -/
def hearFarewell (link : Link) (answer : List UInt8) : Link :=
  match link.sending with
  | .writing payload unsent =>
      { link with
        sending := .writing payload (unsent ++ answer)
        farewell := .silent }
  | _ => { link with farewell := .owed answer }

def actOn (link : Link) (socket : Socket) (now : Instant) :
    List Received → LinkStep
  | [] =>
      { link := link
        socket := socket }
  | .message payload :: rest =>
      let later := link.actOn socket now rest
      { later with events := .received payload now :: later.events }
  | .answer bytes :: rest =>
      match link.answer socket bytes with
      | (.error error, link, socket) =>
          link.endReceiving socket (.ofIoError error)
      | (.ok (), link, socket) => link.actOn socket now rest
  | .farewell answer :: _ =>
      (link.hearFarewell answer).endReceiving socket .closed
  | .fault fault :: _ => link.endReceiving socket fault

def meetEnd (step : LinkStep) : LinkStep :=
  match step.link.receiving, step.socket.endReached with
  | .running, some ending =>
      let farewell : Farewell :=
        match ending with
        | .finished => .silent
        | .failed _ => step.link.farewell
      let ended :=
        { step.link with farewell := farewell }.endReceiving step.socket
          ending.fault
      { ended with events := step.events ++ ended.events }
  | _, _ => step

/-- One turn of the receiving task: it takes at most `most` of the bytes that
have arrived, and meets the end of the stream if nothing is left before
it. -/
def receive (link : Link) (socket : Socket) (most : Nat) (now : Instant) :
    LinkStep :=
  match link.receiving with
  | .running =>
      let (bytes, socket) := socket.take most
      let (intake, received) := link.intake.feed bytes
      meetEnd ({ link with intake := intake }.actOn socket now received)
  | _ =>
      { link := link
        socket := socket }

/-- The receiving task notices that it has been called off. -/
def stopReceiving (link : Link) : Link :=
  if link.cancelled ∧ link.receiving = .running then
    { link with receiving := .ended }
  else link

/-! ### The sending task -/

def endSending (link : Link) (socket : Socket) (fault : Fault) : LinkStep :=
  { link :=
      { link with
        sending := .ended
        outbox := [] }
    socket := socket
    events := [.failed fault] }

def write (link : Link) (socket : Socket) (room : Nat) (payload : Payload)
    (unsent : List UInt8) : LinkStep :=
  match socket.write (unsent.take room) with
  | (.error error, socket) => link.endSending socket (.ofIoError error)
  | (.ok (), socket) =>
      if unsent.length ≤ room then
        { link := { link with sending := .waiting }
          socket := socket
          events := [.sent payload.length] }
      else
        { link :=
            { link with sending := .writing payload (unsent.drop room) }
          socket := socket }

def refusal? (link : Link) : Option Fault :=
  match link.transport, link.farewell with
  | .webSocket, .owed _ =>
      some
        (.io
          (WebSocket.protocolText "Sending after closing is not allowed"))
  | .webSocket, .silent => some .closed
  | _, _ => none

/-- One turn of the sending task: it goes on with the payload in hand, or
takes the next one, and writes as much as there is room for. -/
def send (link : Link) (socket : Socket) (room : Nat) : LinkStep :=
  match link.sending, link.outbox with
  | .writing payload unsent, _ => link.write socket room payload unsent
  | .waiting, payload :: rest =>
      let link := { link with outbox := rest }
      match link.refusal? with
      | some fault => link.endSending socket fault
      | none =>
          link.write socket room payload
            (link.transport.wireBytes payload)
  | _, _ =>
      { link := link
        socket := socket }

/-- The last words of the sending task over WebSocket: the answer owed to the
peer, or a close frame of its own. -/
def lastWords (link : Link) : List UInt8 :=
  match link.transport, link.farewell with
  | .webSocket, .unsaid => closeBytes []
  | .webSocket, .owed answer => answer
  | _, _ => []

/-- The sending task notices, between two payloads, that it has been called
off. -/
def stopSending (link : Link) (socket : Socket) : LinkStep :=
  if link.cancelled ∧ link.sending = .waiting then
    { link :=
        { link with
          sending := .ended
          outbox := [] }
      socket := (socket.write link.lastWords).2 }
  else
    { link := link
      socket := socket }

/-! ### The runtime -/

/-- The runtime is gone: tasks that were under way are dropped; a receiving
task that was never started stays parked in its handle. -/
def halt (link : Link) : Link :=
  { link with
    receiving :=
      match link.receiving with
      | .parked => .parked
      | _ => .ended
    sending := .ended
    outbox := [] }

end Link

end LatencyBench

/-
The simulated peer, which stands in for the device at the other end.

It answers every command with the acknowledgment, and stops when the session
ends.  Over raw TCP a command is a line of text, the last one with or without
its line feed; over WebSocket it is a message.  Its state is moved by single
bytes, so it cannot matter how they were cut into segments.

The peer is here from the moment its connection is made.  How it looks for a
listener, tries again and gives up after a while, and how its thread is called
off from outside, are not modelled.
-/

import LatencyBench.Event
import LatencyBench.Net.Stream
import LatencyBench.WebSocket.Upgrade

namespace LatencyBench

open Http Net WebSocket

structure PeerReport where
  commands : Nat
  server : Option String
deriving DecidableEq, Repr

/-- Where the conversation with the session stands.  Over raw TCP the line
being read is kept. -/
inductive Conversation where
  | lines (line : List UInt8)
  | invited (reader : ResponseReader)
  | messages (receiver : Receiver)
  | over
  | failed (error : PeerError)
deriving DecidableEq, Repr

/-- What is left to the peer: the address it calls, the random bytes that its
key for an upgrade is made of, and the random mask of each of its frames. -/
structure PeerChoices where
  ip : IpAddress
  port : UInt16
  nonce : Vector UInt8 16
  masks : Nat → MaskKey
deriving Inhabited

namespace PeerChoices

def host (choices : PeerChoices) : String :=
  { ip := choices.ip
    port := choices.port : SocketAddress }.text

def key (choices : PeerChoices) : String :=
  Base64.encode choices.nonce.toList

end PeerChoices

/-- A peer.  `written` is everything it has said so far, `delivered` how much
of that has reached the session; `frames` counts the frames it has masked. -/
structure Peer where
  transport : Transport
  choices : PeerChoices
  conversation : Conversation
  commands : Nat
  server : Option String
  written : List UInt8
  delivered : Nat
  frames : Nat

namespace Peer

/-- A peer that has just connected.  Over WebSocket it asks for an upgrade. -/
def start (transport : Transport) (choices : PeerChoices) : Peer :=
  { transport := transport
    choices := choices
    conversation :=
      match transport with
      | .rawTcp => .lines []
      | .webSocket => .invited .beforeLine
    commands := 0
    server := none
    written :=
      match transport with
      | .rawTcp => []
      | .webSocket => invitation choices.host choices.key
    delivered := 0
    frames := 0 }

def say (peer : Peer) (bytes : List UInt8) : Peer :=
  { peer with written := peer.written ++ bytes }

def sayFrame (peer : Peer) (opcode : Opcode) (payload : List UInt8) : Peer :=
  let mask := peer.choices.masks peer.frames
  { peer with frames := peer.frames + 1 }.say
    (Frame.whole opcode (some mask) payload).encode

def answerCommand (peer : Peer) : Peer :=
  let counted := { peer with commands := peer.commands + 1 }
  match peer.transport with
  | .rawTcp => counted.say acknowledgment
  | .webSocket => counted.sayFrame .text acknowledgment

def goOn (peer : Peer) (conversation : Conversation) : Peer :=
  { peer with conversation := conversation }

/-! ### Over raw TCP -/

def notTextError : PeerError :=
  .io
    { kind := .invalidData
      text := "stream did not contain valid UTF-8" }

def takeLine (peer : Peer) (line : List UInt8) : Peer :=
  if Utf8.isValid line then (peer.goOn (.lines [])).answerCommand
  else peer.goOn (.failed notTextError)

/-! ### Over WebSocket -/

def takeDelivery (peer : Peer) (receiver : Receiver) : Delivery → Peer
  | .nothing => peer.goOn (.messages receiver)
  | .message _ _ => (peer.goOn (.messages receiver)).answerCommand
  | .ping payload => (peer.goOn (.messages receiver)).sayFrame .pong payload
  | .pong _ => peer.goOn (.messages receiver)
  | .close _ => peer.goOn .over
  | .violation _ => peer.goOn .over

def takeResponse (peer : Peer) (response : ResponseHead) : Peer :=
  match judgeResponse peer.choices.key response with
  | .error error => peer.goOn (.failed (.handshake error.message))
  | .ok () =>
      { peer with
        conversation := .messages (.start .client)
        server :=
          ((fieldValue? response.fields "server").bind visible?).map
            Utf8.decodeLossy }

/-! ### Bytes and the end -/

def step (peer : Peer) (byte : UInt8) : Peer :=
  match peer.conversation with
  | .lines line =>
      if byte = lineFeed then peer.takeLine line
      else peer.goOn (.lines (line ++ [byte]))
  | .invited reader =>
      match reader.step byte with
      | .going reader => peer.goOn (.invited reader)
      | .found response => peer.takeResponse response
      | .refused error =>
          peer.goOn (.failed (.handshake (UpgradeError.head error).message))
  | .messages receiver =>
      let (receiver, delivery) := receiver.step byte
      peer.takeDelivery receiver delivery
  | .over => peer
  | .failed _ => peer

def feed (peer : Peer) (bytes : List UInt8) : Peer :=
  bytes.foldl step peer

def meetEnd (peer : Peer) (ending : StreamEnd) : Peer :=
  match peer.conversation, ending with
  | .lines [], .finished => peer.goOn .over
  | .lines line, .finished =>
      let last := peer.takeLine line
      match last.conversation with
      | .lines _ => last.goOn .over
      | _ => last
  | .lines _, .failed error => peer.goOn (.failed (.io error))
  | .invited _, .finished =>
      peer.goOn (.failed (.handshake UpgradeError.unfinished.message))
  | .invited _, .failed error =>
      peer.goOn (.failed (.handshake (UpgradeError.io error).message))
  | .messages _, _ => peer.goOn .over
  | .over, _ => peer
  | .failed _, _ => peer

def isOver (peer : Peer) : Bool :=
  match peer.conversation with
  | .over => true
  | .failed _ => true
  | _ => false

/-- What the peer reports; a peer that was stopped reports nothing. -/
def report (peer : Peer) : Except PeerError PeerReport :=
  match peer.conversation with
  | .failed error => .error error
  | .over =>
      .ok
        { commands := peer.commands
          server := peer.server }
  | _ =>
      .ok
        { commands := 0
          server := none }

def inTransit (peer : Peer) : List UInt8 :=
  peer.written.drop peer.delivered

def deliver (peer : Peer) (most : Nat) : List UInt8 × Peer :=
  let bytes := peer.inTransit.take most
  (bytes, { peer with delivered := peer.delivered + bytes.length })

end Peer

end LatencyBench

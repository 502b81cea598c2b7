/-
The wire between a session and its peer: the session's transport, the peer
if one takes part, and the clock.

This is what surrounds an engine.  Nothing on a wire happens at an instant of
its own accord; each step is one thing that some task, the peer or the clock
does, so every order of steps is a possible course of a session.
-/

import LatencyBench.Connection.Endpoint
import LatencyBench.Peer
import LatencyBench.Run

namespace LatencyBench

open Net WebSocket

structure Wire where
  endpoint : Endpoint
  peer : Option Peer
  now : Instant

/-- What can happen on a wire: time passes, something happens to the
transport, or the simulated peer joins, takes what was sent to it, has some
of its own bytes arrive, meets the end of the stream, or lets go of its
socket when it is through. -/
inductive WireStep where
  | pass (span : Duration)
  | endpoint (step : EndpointStep)
  | peerJoins (choices : PeerChoices)
  | peerReads (most : Nat)
  | peerReaches (most : Nat)
  | peerMeetsEnd
  | peerLeaves

namespace Wire

def start (transport : Transport) : Wire :=
  { endpoint := .start transport
    peer := none
    now := 0 }

/-- The simulated peer connects, if someone listens and nobody has connected
before. -/
def peerJoins (wire : Wire) (choices : PeerChoices) : Wire :=
  if wire.endpoint.isListening ∧ wire.endpoint.socket.isNone ∧
      wire.peer.isNone then
    { wire with
      endpoint := wire.endpoint.connect true
      peer := some (.start wire.endpoint.transport choices) }
  else wire

def between (wire : Wire) (change : Peer → Socket → Peer × Socket) : Wire :=
  match wire.peer, wire.endpoint.socket with
  | some peer, some socket =>
      let (peer, socket) := change peer socket
      { wire with
        endpoint := { wire.endpoint with socket := some socket }
        peer := some peer }
  | _, _ => wire

def peerReads (wire : Wire) (most : Nat) : Wire :=
  wire.between fun peer socket =>
    let (bytes, socket) := socket.collect most
    (peer.feed bytes, socket)

def peerReaches (wire : Wire) (most : Nat) : Wire :=
  wire.between fun peer socket =>
    let (bytes, peer) := peer.deliver most
    (peer, socket.arrive bytes)

/-- The peer meets the end of the stream, once it has read everything. -/
def peerMeetsEnd (wire : Wire) : Wire :=
  if wire.endpoint.outboundOver then
    wire.between fun peer socket =>
      if socket.inTransit.isEmpty then (peer.meetEnd .finished, socket)
      else (peer, socket)
  else wire

/-- The peer lets go of its socket, once it is through and everything it said
has arrived. -/
def peerLeaves (wire : Wire) : Wire :=
  wire.between fun peer socket =>
    if peer.isOver && peer.inTransit.isEmpty then (peer, socket.hangUp)
    else (peer, socket)

def step (wire : Wire) : WireStep → Wire × List Event
  | .pass span => ({ wire with now := wire.now + span }, [])
  | .endpoint step =>
      let (endpoint, events) := wire.endpoint.turn wire.now step
      ({ wire with endpoint := endpoint }, events)
  | .peerJoins choices => (wire.peerJoins choices, [])
  | .peerReads most => (wire.peerReads most, [])
  | .peerReaches most => (wire.peerReaches most, [])
  | .peerMeetsEnd => (wire.peerMeetsEnd, [])
  | .peerLeaves => (wire.peerLeaves, [])

/-- Learns what the engine has let go of: its listener, the tokens of its
tasks, or the runtime. -/
def notice (wire : Wire) (engine : Engine) : Wire :=
  let endpoint := wire.endpoint
  let endpoint :=
    if engine.machine.listening then endpoint else endpoint.cancelAccept
  let endpoint := if engine.cancelled then endpoint.cancelSession else endpoint
  let endpoint := if engine.ownsRuntime then endpoint else endpoint.halt
  { wire with endpoint := endpoint }

def surroundings : Surroundings Wire WireStep :=
  { call := fun wire made =>
      let (endpoint, events) := wire.endpoint.perform made
      ({ wire with endpoint := endpoint }, events)
    step := step
    notice := notice
    clock := Wire.now }

/-! ### Coming to rest -/

def settleEndpoint (wire : Wire) : Wire × List Event :=
  let (endpoint, events) := wire.endpoint.settle wire.now
  ({ wire with endpoint := endpoint }, events)

/-- How long it takes until what was sent has arrived. -/
def transitTime : Duration := 1000

def exchange (wire : Wire) : Wire :=
  let wire := { wire with now := wire.now + transitTime }
  match wire.peer, wire.endpoint.socket with
  | some _, some socket =>
      let heard := (wire.peerReads socket.inTransit.length).peerMeetsEnd
      match heard.peer with
      | none => heard
      | some peer => (heard.peerReaches peer.inTransit.length).peerLeaves
  | _, _ => wire

def settle (wire : Wire) : Nat → Wire × List Event
  | 0 => wire.settleEndpoint
  | rounds + 1 =>
      let (settled, events) := wire.settleEndpoint
      let (last, more) := settled.exchange.settle rounds
      (last, events ++ more)

end Wire

end LatencyBench

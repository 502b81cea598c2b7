/-
A caller: whoever connects to a listener and plays the peer by hand.

A caller connects, writes bytes that somebody else has made up, ends its side
of the stream in one of three ways, and hears what comes back.  While it
expects the head of a response it keeps what has arrived of it, and hands the
head over once it is complete.
-/

import LatencyBench.Connection.Endpoint
import LatencyBench.Net.Network

namespace LatencyBench

open Net

/-- A caller with an open socket, and what has arrived of the head that it
expects, if it does. -/
structure Caller where
  head : Option (List UInt8) := none
deriving DecidableEq, Repr

/-- What a caller can do.  Bytes may ask for a response with a head. -/
inductive CallerStep where
  | connect
  | write (bytes : List UInt8) (expectsHead : Bool)
  | finish
  | hangUp
  | reset
deriving DecidableEq, Repr

inductive CallerReply where
  | connected
  | refused
  | written
  | notConnected
  | done
deriving DecidableEq, Repr

/-- What a caller has heard since it listened last: the bytes after the head,
whether the stream has ended, and the head if it is complete now. -/
structure Heard where
  bytes : List UInt8
  ended : Bool
  head : Option (List UInt8)
deriving DecidableEq, Repr

structure Called where
  endpoint : Endpoint
  caller : Option Caller
deriving DecidableEq, Repr

namespace Called

def change (called : Called) (step : EndpointStep)
    (caller : Option Caller) : Called :=
  { endpoint := (called.endpoint.turn 0 step).1
    caller := caller }

def reachable (called : Called) (network : Network) : Bool :=
  network.isReachable && called.endpoint.isListening &&
    called.endpoint.socket.isNone

/-- One step of the caller.  Without an open socket its bytes go nowhere, and
there is nothing to end. -/
def step (called : Called) (network : Network) :
    CallerStep → CallerReply × Called
  | .connect =>
      if called.reachable network then
        (.connected, called.change (.connect true) (some {}))
      else (.refused, called)
  | .write bytes expectsHead =>
      match called.caller with
      | none => (.notConnected, called)
      | some caller =>
          let after := if expectsHead then { head := some [] } else caller
          (.written, called.change (.arrive bytes) (some after))
  | .finish =>
      match called.caller with
      | none => (.done, called)
      | some caller => (.done, called.change .finish (some caller))
  | .hangUp =>
      match called.caller with
      | none => (.done, called)
      | some _ => (.done, called.change .hangUp none)
  | .reset =>
      match called.caller with
      | none => (.done, called)
      | some _ => (.done, called.change .reset none)

def sort (caller : Caller) (bytes : List UInt8) (ended : Bool) :
    Heard × Caller :=
  match caller.head with
  | none =>
      ({ bytes := bytes
         ended := ended
         head := none }, caller)
  | some seen =>
      match Http.splitHead (seen ++ bytes) with
      | some (head, rest) =>
          ({ bytes := rest
             ended := ended
             head := some head }, { head := none })
      | none =>
          ({ bytes := []
             ended := ended
             head := none }, { head := some (seen ++ bytes) })

def hear (called : Called) : Option Heard × Called :=
  match called.caller, called.endpoint.socket with
  | some caller, some socket =>
      let (bytes, emptied) := socket.collect socket.inTransit.length
      let endpoint := { called.endpoint with socket := some emptied }
      let (heard, after) := sort caller bytes endpoint.outboundOver
      (some heard,
        { endpoint := endpoint
          caller := some after })
  | _, _ => (none, called)

end Called

end LatencyBench

/-
An ordered, reliable stream of bytes between two ends, seen from one of them.

What the far end has sent and nobody has read yet waits in `inbound`; how the
stream ends comes after it.  Everything ever written stays in `outbound`, in
order, and `collected` counts how much of it the far end has taken.  A far end
that has let go still accepts one more write, which it answers by refusing
every later one.
-/

import LatencyBench.Fault

namespace LatencyBench.Net

inductive StreamEnd where
  | finished
  | failed (error : IoError)
deriving DecidableEq, Repr

def StreamEnd.fault : StreamEnd → Fault
  | .finished => .closed
  | .failed error => .ofIoError error

/-- Whether the far end still takes what is written. -/
inductive FarEnd where
  | present
  | gone
  | refusing
deriving DecidableEq, Repr

structure Socket where
  inbound : List UInt8
  ending : Option StreamEnd
  outbound : List UInt8
  collected : Nat
  farEnd : FarEnd
deriving DecidableEq, Repr

namespace Socket

def fresh : Socket :=
  { inbound := []
    ending := none
    outbound := []
    collected := 0
    farEnd := .present }

/-! ### What the far end does -/

/-- Bytes arrive; nothing arrives after the end. -/
def arrive (socket : Socket) (bytes : List UInt8) : Socket :=
  match socket.ending with
  | none => { socket with inbound := socket.inbound ++ bytes }
  | some _ => socket

def finish (socket : Socket) : Socket :=
  { socket with ending := some (socket.ending.getD .finished) }

def hangUp (socket : Socket) : Socket :=
  { socket.finish with
    farEnd :=
      match socket.farEnd with
      | .present => .gone
      | other => other }

def reset (socket : Socket) : Socket :=
  { socket with
    ending := some (.failed (.ofOs 104))
    farEnd := .refusing }

def inTransit (socket : Socket) : List UInt8 :=
  socket.outbound.drop socket.collected

def collect (socket : Socket) (most : Nat) : List UInt8 × Socket :=
  let taken := socket.inTransit.take most
  (taken, { socket with collected := socket.collected + taken.length })

/-! ### What this end does -/

def take (socket : Socket) (most : Nat) : List UInt8 × Socket :=
  (socket.inbound.take most,
    { socket with inbound := socket.inbound.drop most })

/-- The end of the stream, once every byte before it has been taken. -/
def endReached (socket : Socket) : Option StreamEnd :=
  if socket.inbound.isEmpty then socket.ending else none

/-- Writes bytes; to write none does nothing.  An abort that has not been
reported yet is reported here, and only once. -/
def write (socket : Socket) (bytes : List UInt8) :
    Except IoError Unit × Socket :=
  if bytes.isEmpty then (.ok (), socket)
  else
    match socket.farEnd with
    | .present =>
        (.ok (), { socket with outbound := socket.outbound ++ bytes })
    | .gone => (.ok (), { socket with farEnd := .refusing })
    | .refusing =>
        match socket.ending with
        | some (.failed error) =>
            (.error error, { socket with ending := some .finished })
        | _ => (.error (.ofOs 32), socket)

end Socket

end LatencyBench.Net

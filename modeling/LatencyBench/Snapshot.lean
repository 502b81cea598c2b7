/-
What a front-end sees of a session once per frame.
-/

import LatencyBench.Machine

namespace LatencyBench

structure Snapshot where
  transport : Transport
  phase : Phase
  connected : Bool
  pending : Bool
  lastRoundTrip : Float
  stats : Aggregate Float
  frame : Nat
deriving Repr

def Snapshot.ofMachine (machine : Machine) (frame : Nat) : Snapshot :=
  { transport := machine.transport
    phase := machine.phase
    connected := machine.isConnected
    pending := machine.measurement.pending
    lastRoundTrip := machine.measurement.lastRoundTrip
    stats := machine.stats
    frame := frame }

def Snapshot.canSend (snapshot : Snapshot) : Bool :=
  snapshot.connected && !snapshot.pending

end LatencyBench

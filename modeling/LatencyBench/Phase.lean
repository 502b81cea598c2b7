/-
The phases of a session and the reasons for its end.
-/

import LatencyBench.Fault

namespace LatencyBench

/-- Where a session stands.  `sending` is meant for a command that is queued
and not yet written, `awaitingAck` for one that is written and not yet
answered. -/
inductive Phase where
  | awaitingConnection
  | connected
  | sending
  | awaitingAck
  | terminated
deriving DecidableEq, Repr

def Phase.isConnected : Phase → Bool
  | .connected => true
  | .sending => true
  | .awaitingAck => true
  | .awaitingConnection => false
  | .terminated => false

def Phase.label : Phase → String
  | .awaitingConnection => "waiting for connection"
  | .connected => "connected"
  | .sending => "sending"
  | .awaitingAck => "awaiting acknowledgment"
  | .terminated => "terminated"

def Phase.name : Phase → String
  | .awaitingConnection => "AwaitingConnection"
  | .connected => "Connected"
  | .sending => "Sending"
  | .awaitingAck => "AwaitingAck"
  | .terminated => "Terminated"

inductive Termination where
  | stopped
  | windowClosed
  | cancelled
  | fault (cause : Fault)
deriving DecidableEq, Repr

def Termination.isFault : Termination → Bool
  | .fault _ => true
  | _ => false

def Termination.message : Termination → String
  | .stopped => "stopped"
  | .windowClosed => "closed by user"
  | .cancelled => "accept cancelled"
  | .fault cause => "transport failure: " ++ cause.message

end LatencyBench

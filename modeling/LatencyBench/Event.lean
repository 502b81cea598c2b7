/-
What reaches the session from outside: completions of input and output, and
the one thing a user can ask for.
-/

import LatencyBench.Fault
import LatencyBench.Time
import LatencyBench.Transport

namespace LatencyBench

/-- A live connection, known by a number.  Whoever holds the value owns the
connection; it is delivered once, inside an event. -/
structure Connection where
  number : Nat
  transport : Transport
deriving DecidableEq, Repr

inductive Event where
  | established (connection : Connection)
  | received (payload : Payload) (receivedAt : Instant)
  | sent (length : Nat)
  | cancelled
  | failed (fault : Fault)
deriving DecidableEq, Repr

def Event.name : Event → String
  | .established _ => "connection_established"
  | .received .. => "message_received"
  | .sent _ => "send_completed"
  | .cancelled => "cancelled"
  | .failed _ => "transport_error"

inductive Intent where
  | sendCommand
deriving DecidableEq, Repr

def Connection.detail (connection : Connection) : String :=
  "ActiveConnection \x7b kind: " ++ connection.transport.name ++ ", .. \x7d"

end LatencyBench

/-
The two transports a session can use, and the payloads that travel over them.

A measurement sends one fixed command and waits for one fixed
acknowledgment; everything else a peer says is only logged.
-/

import LatencyBench.Text.Utf8

namespace LatencyBench

abbrev Payload := List UInt8

inductive Transport where
  | webSocket
  | rawTcp
deriving DecidableEq, Repr

def Transport.name : Transport → String
  | .webSocket => "WebSocket"
  | .rawTcp => "RawTcp"

def Transport.defaultPort : Transport → UInt16
  | .webSocket => 9002
  | .rawTcp => 9003

/-- The command that starts a measurement: `button clicked` and a line
feed. -/
def command : Payload :=
  [0x62, 0x75, 0x74, 0x74, 0x6f, 0x6e, 0x20,
    0x63, 0x6c, 0x69, 0x63, 0x6b, 0x65, 0x64, 0x0a]

def acknowledgment : Payload :=
  [0x72, 0x65, 0x63, 0x65, 0x69, 0x76, 0x65, 0x64]

end LatencyBench

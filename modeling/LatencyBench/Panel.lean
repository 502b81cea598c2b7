/-
The status panel: nine rows of text that show one snapshot.
-/

import LatencyBench.Decimal.Fixed
import LatencyBench.Net.Address
import LatencyBench.Snapshot

namespace LatencyBench.Panel

open Net

def title : String := "teleop-latency"

def enabledControl : String := "[ Send command ]  (Enter)"

def control (snapshot : Snapshot) : String :=
  if snapshot.canSend then enabledControl
  else if snapshot.pending then "[ waiting for ack ]"
  else "[ send disabled ]"

/-- The row of the phase; while a peer is awaited it says where. -/
def status (snapshot : Snapshot) (listen : SocketAddress) : String :=
  match snapshot.phase with
  | .awaitingConnection =>
      "status: " ++ snapshot.phase.label ++ " on " ++ listen.text
  | phase => "status: " ++ phase.label

def named (name : String) (milliseconds : Float) : String :=
  name ++ " " ++ Decimal.latency milliseconds ++ " ms"

def aggregate (stats : Aggregate Float) : String :=
  if stats.samples = 0 then "samples: 0"
  else
    "samples: " ++ toString stats.samples ++
      "  " ++ named "min" stats.least ++
      "  " ++ named "mean" stats.mean ++
      "  " ++ named "max" stats.greatest

def rows (snapshot : Snapshot) (listen : SocketAddress) : List String :=
  [title ++ "  [" ++ snapshot.transport.name ++ "]",
   status snapshot listen,
   "",
   control snapshot,
   "",
   named "last round trip:" snapshot.lastRoundTrip,
   aggregate snapshot.stats,
   "",
   "q / Esc: quit"]

end LatencyBench.Panel

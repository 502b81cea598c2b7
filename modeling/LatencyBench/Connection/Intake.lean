/-
What a receive loop makes of the bytes that arrive.

Over raw TCP every eight bytes are a message.  Over WebSocket the bytes are
frames; a message without content is skipped, a ping is answered at once, and
a close frame or a breach of the protocol ends the loop.  Either way the loop
moves by single bytes, so it cannot matter how they were cut into segments.
-/

import LatencyBench.Event
import LatencyBench.WebSocket.Message

namespace LatencyBench

open WebSocket

inductive Intake where
  | block (filled : List UInt8)
  | frames (receiver : Receiver)
  | over
deriving DecidableEq, Repr

/-- What a byte leads to: a message, an answer to be written at once, the
farewell of the peer with the answer it is owed, or a fault.  The last two
end the loop. -/
inductive Received where
  | message (payload : Payload)
  | answer (bytes : List UInt8)
  | farewell (answer : List UInt8)
  | fault (fault : Fault)
deriving DecidableEq, Repr

def blockLength : Nat := acknowledgment.length

def pongBytes (payload : List UInt8) : List UInt8 :=
  (Frame.whole .pong none payload).encode

def closeBytes (payload : List UInt8) : List UInt8 :=
  (Frame.whole .close none payload).encode

namespace Intake

def start : Transport → Intake
  | .rawTcp => .block []
  | .webSocket => .frames (.start .server)

/-- What the receive loop makes of a delivery. -/
def ofDelivery (receiver : Receiver) :
    Delivery → Intake × List Received
  | .nothing => (.frames receiver, [])
  | .message _ payload =>
      (.frames receiver, if payload.isEmpty then [] else [.message payload])
  | .ping payload => (.frames receiver, [.answer (pongBytes payload)])
  | .pong _ => (.frames receiver, [])
  | .close answer => (.over, [.farewell (closeBytes answer)])
  | .violation violation => (.over, [.fault (.io violation.message)])

def step : Intake → UInt8 → Intake × List Received
  | .block filled, byte =>
      let filled := filled ++ [byte]
      if filled.length < blockLength then (.block filled, [])
      else (.block [], [.message filled])
  | .frames receiver, byte =>
      let (receiver, delivery) := receiver.step byte
      ofDelivery receiver delivery
  | .over, _ => (.over, [])

def feed (intake : Intake) : List UInt8 → Intake × List Received
  | [] => (intake, [])
  | byte :: rest =>
      let (next, received) := intake.step byte
      let (last, more) := next.feed rest
      (last, received ++ more)

end Intake

end LatencyBench

/-
The key that accepts an upgrade: whoever can compute it from the key of the
request speaks the protocol.
-/

import LatencyBench.Digest.Sha1
import LatencyBench.Text.Base64
import LatencyBench.Text.Utf8

namespace LatencyBench.WebSocket

def acceptSuffix : String := "258EAFA5-E914-47DA-95CA-C5AB0DC85B11"

def acceptKey (key : List UInt8) : String :=
  Base64.encode (Sha1.digest (key ++ Utf8.encode acceptSuffix))

end LatencyBench.WebSocket

/-
What can go wrong: failures of a session's transport, failures to start a
session, and failures of the simulated peer.
-/

import LatencyBench.Net.Address
import LatencyBench.Net.IoError

namespace LatencyBench

open Net

inductive Fault where
  | accept (text : String)
  | handshake (text : String)
  | closed
  | io (text : String)
deriving DecidableEq, Repr

def Fault.message : Fault → String
  | .accept text => "accept failed: " ++ text
  | .handshake text => "websocket handshake failed: " ++ text
  | .closed => "connection closed by peer"
  | .io text => "transport I/O error: " ++ text

def endsConnection : IoErrorKind → Bool
  | .unexpectedEnd => true
  | .connectionReset => true
  | .connectionAborted => true
  | .brokenPipe => true
  | _ => false

/-- The fault behind a failed read or write: the peer is gone, or the error
is passed on with its text. -/
def Fault.ofIoError (error : IoError) : Fault :=
  if endsConnection error.kind then .closed else .io error.text

inductive StartError where
  | bind (address : SocketAddress) (source : IoError)
  | runtime (source : IoError)
deriving DecidableEq, Repr

def StartError.message : StartError → String
  | .bind address source =>
      "failed to bind " ++ address.text ++ ": " ++ source.text
  | .runtime source => "failed to start I/O runtime: " ++ source.text

def StartError.source : StartError → IoError
  | .bind _ source => source
  | .runtime source => source

inductive PeerError where
  | connect (address : SocketAddress) (source : IoError)
  | handshake (text : String)
  | io (source : IoError)
  | panicked
deriving DecidableEq, Repr

def PeerError.message : PeerError → String
  | .connect address source =>
      "could not connect to " ++ address.text ++ ": " ++ source.text
  | .handshake text => "websocket handshake failed: " ++ text
  | .io source => "peer I/O error: " ++ source.text
  | .panicked => "peer thread panicked"

def PeerError.sourceText? : PeerError → Option String
  | .connect _ source => some source.text
  | .handshake text => some text
  | .io source => some source.text
  | .panicked => none

end LatencyBench

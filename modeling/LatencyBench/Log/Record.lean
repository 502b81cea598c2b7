/-
Log records: the part of the program that one comes from, a level, a message
and named fields, and how the values of the domain are written inside them.
-/

import LatencyBench.Log.Level
import LatencyBench.Phase
import LatencyBench.Text.Quoted

namespace LatencyBench

inductive FieldValue where
  | text (text : String)
  | number (value : Float)
deriving Repr

inductive LogSource where
  | machine
  | engine
  | transport
  | headless
  | console
deriving DecidableEq, Repr

def LogSource.target : LogSource → String
  | .machine => "teleop_latency::actor::machine"
  | .engine => "teleop_latency::actor::engine"
  | .transport => "teleop_latency::transport"
  | .headless => "teleop_latency::frontend::auto"
  | .console => "teleop_latency::frontend::console"

structure LogRecord where
  source : LogSource
  level : Level
  message : String
  fields : List (String × FieldValue) := []
deriving Repr

def Fault.detail : Fault → String
  | .accept text => "Accept(" ++ Quoted.quote text ++ ")"
  | .handshake text => "Handshake(" ++ Quoted.quote text ++ ")"
  | .closed => "Closed"
  | .io text => "Io(" ++ Quoted.quote text ++ ")"

def Termination.detail : Termination → String
  | .stopped => "Stopped"
  | .windowClosed => "WindowClosed"
  | .cancelled => "Cancelled"
  | .fault cause => "Fault(" ++ cause.detail ++ ")"

end LatencyBench

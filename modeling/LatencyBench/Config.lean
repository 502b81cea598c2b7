/-
The settings of one session.
-/

import LatencyBench.Net.Address
import LatencyBench.Time
import LatencyBench.Transport

namespace LatencyBench

open Net

inductive Execution where
  | cooperative
  | background
deriving DecidableEq, Repr

def Execution.name : Execution → String
  | .cooperative => "Cooperative"
  | .background => "Background"

/-- Settings of one session.  Port zero asks for any free port. -/
structure Config where
  transport : Transport
  bindAddress : IpAddress
  port : UInt16
  targetFps : UInt32
  execution : Execution
deriving DecidableEq, Repr

namespace Config

def forTransport (transport : Transport) : Config :=
  { transport := transport
    bindAddress := .unspecified
    port := transport.defaultPort
    targetFps := 60
    execution := .cooperative }

def standard : Config := forTransport .webSocket

def withPort (config : Config) (port : UInt16) : Config :=
  { config with port := port }

def withBindAddress (config : Config) (address : IpAddress) : Config :=
  { config with bindAddress := address }

def withExecution (config : Config) (execution : Execution) : Config :=
  { config with execution := execution }

/-- Another frame rate; zero counts as one. -/
def withTargetFps (config : Config) (fps : UInt32) : Config :=
  { config with targetFps := if fps = 0 then 1 else fps }

def listenAddress (config : Config) : SocketAddress :=
  { ip := config.bindAddress
    port := config.port }

/-- The length of one frame; a rate of zero counts as one. -/
def frameDuration (config : Config) : Duration :=
  nanosPerSecond / max config.targetFps.toNat 1

end Config

end LatencyBench

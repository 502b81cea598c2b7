/-
A session behind a handle, on a wire: what a host keeps between its frames.

Input and output run beside the frames, so the wire comes to rest after
everything that is done through the handle.
-/

import LatencyBench.Host

namespace LatencyBench

structure HostSession where
  host : Host Wire
  code : Option HostTick
  written : HostSnapshot

namespace HostSession

def start (transport : Transport) (port : UInt16) : HostSession :=
  let config := Host.config transport port
  let engine := Engine.start config
  { host := .start config (Wire.start transport)
    code := none
    written := .ofSnapshot engine.snapshot }

def rest (session : HostSession) : HostSession :=
  let (world, events) := session.host.world.settle Session.restRounds
  { session with
    host :=
      { session.host with
        engine := session.host.engine.complete events
        world := world } }

/-- One tick; without a place to write to the record stays as it is. -/
def tick (session : HostSession) (writes : Bool) : HostSession :=
  let frame := session.host.tick Wire.surroundings []
  let ticked : HostSession :=
    { host := frame.host
      code := some frame.code
      written := if writes then frame.written else session.written }
  ticked.rest

def ticks (session : HostSession) : Nat → HostSession
  | 0 => session
  | count + 1 => (session.tick true).ticks count

def endpoint (session : HostSession) : Endpoint :=
  session.host.world.endpoint

def onEndpoint (session : HostSession) (change : Endpoint → Endpoint) :
    HostSession :=
  let world := session.host.world
  { session with
    host :=
      { session.host with
        world := { world with endpoint := change world.endpoint } } }

def sendCommand (session : HostSession) : HostSession × HostResult :=
  let (host, result) := session.host.sendCommand
  ({ session with host := host }, result)

def stop (session : HostSession) : HostSession :=
  { session with host := session.host.stop }

def release (session : HostSession) : Endpoint :=
  let released :=
    session.host.engine.release Wire.surroundings session.host.world
  (released.world.settleEndpoint.1).endpoint

end HostSession

end LatencyBench

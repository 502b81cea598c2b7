/-
The view for hosts written in other languages: numbers instead of variants,
and one flat record per frame.

A host owns a session through a handle.  It ticks the session from its own
loop, reads the record that the tick writes, and presses the send control or
asks for a stop in between.
-/

import LatencyBench.Session

namespace LatencyBench

def version : String := "0.1.0"

def Phase.number : Phase → Nat
  | .awaitingConnection => 0
  | .connected => 1
  | .sending => 2
  | .awaitingAck => 3
  | .terminated => 4

inductive HostTick where
  | proceed
  | stopped
  | cancelled
  | fault
  | nullHandle
deriving DecidableEq, Repr

def HostTick.number : HostTick → Nat
  | .proceed => 0
  | .stopped => 1
  | .cancelled => 2
  | .fault => 3
  | .nullHandle => 4

def HostTick.ofTermination : Termination → HostTick
  | .stopped => .stopped
  | .windowClosed => .stopped
  | .cancelled => .cancelled
  | .fault _ => .fault

def HostTick.ofOutcome : Outcome → HostTick
  | .proceed => .proceed
  | .stop reason => .ofTermination reason

inductive HostResult where
  | ok
  | nullHandle
  | notRunning
deriving DecidableEq, Repr

def HostResult.number : HostResult → Nat
  | .ok => 0
  | .nullHandle => 1
  | .notRunning => 2

structure HostSnapshot where
  phase : Nat
  connected : Bool
  pending : Bool
  lastRoundTrip : Float
  samples : Nat
  least : Float
  mean : Float
  greatest : Float
  frame : Nat
deriving Repr

def HostSnapshot.ofSnapshot (snapshot : Snapshot) : HostSnapshot :=
  { phase := snapshot.phase.number
    connected := snapshot.connected
    pending := snapshot.pending
    lastRoundTrip := snapshot.lastRoundTrip
    samples := snapshot.stats.samples
    least := snapshot.stats.least
    mean := snapshot.stats.mean
    greatest := snapshot.stats.greatest
    frame := snapshot.frame }

/-- The front-end of a host keeps the snapshot it was shown last; drawing it
is up to the host, which never closes the front-end by itself. -/
def hostFrontend : Frontend (Option Snapshot) :=
  { closeRequested := fun _ => false
    render := fun _ snapshot _ => { state := some snapshot } }

/-! ### Handles -/

structure Host (ω : Type) where
  engine : Engine
  world : ω
  latest : Option Snapshot

structure HostFrame (ω : Type) where
  host : Host ω
  code : HostTick
  written : HostSnapshot

namespace Host

variable {ω σ : Type}

/-- The settings of a session behind a handle: the transport and the port are
chosen, and input and output run beside the frames. -/
def config (transport : Transport) (port : UInt16) : Config :=
  ((Config.forTransport transport).withPort port).withExecution .background

def start (config : Config) (world : ω) : Host ω :=
  { engine := .start config
    world := world
    latest := none }

/-- Runs one frame.  A session that goes on writes the snapshot that was
rendered, one that has ended a fresh one. -/
def tick (around : Surroundings ω σ) (host : Host ω)
    (meanwhile : List σ) : HostFrame ω :=
  let ticked :=
    host.engine.tick around hostFrontend host.latest meanwhile host.world
  let shown :=
    match ticked.outcome with
    | .proceed => ticked.frontend.getD ticked.engine.snapshot
    | .stop _ => ticked.engine.snapshot
  { host :=
      { engine := ticked.engine
        world := ticked.world
        latest := ticked.frontend }
    code := .ofOutcome ticked.outcome
    written := .ofSnapshot shown }

def sendCommand (host : Host ω) : Host ω × HostResult :=
  if host.engine.running then
    ({ host with engine := host.engine.press [.sendCommand] }, .ok)
  else (host, .notRunning)

def stop (host : Host ω) : Host ω :=
  { host with engine := host.engine.requestStop }

def isRunning (host : Host ω) : Bool := host.engine.running

def beside (around : Surroundings ω σ) (host : Host ω) (step : σ) : Host ω :=
  let (world, events) := around.step host.world step
  { host with
    engine := host.engine.complete events
    world := world }

end Host

end LatencyBench

/-
The frame driver: it owns the machine and the two queues, and advances them
by one frame per tick.

    1. a stop request or a closed front-end ends the session
    2. the queued intents are applied
    3. the queued events are applied
    4. the front-end is rendered
    5. the session ends if the machine has

What carries out the machine's calls, and what else goes on beside the frame
loop, are the surroundings of the engine, which are a parameter: the laws of
the driver hold whatever they do.
-/

import LatencyBench.Config
import LatencyBench.Frontend.Basic
import LatencyBench.Queue

namespace LatencyBench

/-- The driver of a session.  `ownsRuntime` says whether input and output can
still run, `cancelled` whether everything that waits has been called off.
`frames` stands for a counter of 64 bits below `2 ^ 64` frames. -/
structure Engine where
  config : Config
  machine : Machine
  events : Queue Event
  intents : Queue Intent
  stopRequested : Bool
  cancelled : Bool
  ownsRuntime : Bool
  running : Bool
  frames : Nat
deriving Repr

inductive Outcome where
  | proceed
  | stop (reason : Termination)
deriving DecidableEq, Repr

/-! ### Surroundings -/

/-- What surrounds an engine, with states `ω`.  `call` carries out a call on
a connection; `step` is something that happens beside the frame loop, one of
the steps `σ`; both may complete operations.  `notice` learns what the engine
has let go of, and `clock` is the present moment. -/
structure Surroundings (ω σ : Type) where
  call : ω → ConnectionCall → ω × List Event
  step : ω → σ → ω × List Event
  notice : ω → Engine → ω
  clock : ω → Instant

namespace Surroundings

variable {ω σ : Type}

def callAll (around : Surroundings ω σ) (world : ω) :
    List ConnectionCall → ω × List Event
  | [] => (world, [])
  | call :: rest =>
      let (next, events) := around.call world call
      let (last, more) := around.callAll next rest
      (last, events ++ more)

def stepAll (around : Surroundings ω σ) (world : ω) :
    List σ → ω × List Event
  | [] => (world, [])
  | step :: rest =>
      let (next, events) := around.step world step
      let (last, more) := around.stepAll next rest
      (last, events ++ more)

end Surroundings

structure Driven (ω : Type) where
  engine : Engine
  world : ω
  log : List LogRecord := []

/-- What a tick leads to.  `shown` is the snapshot that was rendered, if one
was. -/
structure Tick (ω φ : Type) where
  engine : Engine
  world : ω
  frontend : φ
  outcome : Outcome
  shown : Option Snapshot := none
  log : List LogRecord := []

namespace Engine

variable {ω σ φ : Type}

def start (config : Config) : Engine :=
  { config := config
    machine := .start config.transport true
    events := .empty
    intents := .empty
    stopRequested := false
    cancelled := false
    ownsRuntime := true
    running := true
    frames := 0 }

def listenRecord (config : Config) (listen : Net.SocketAddress) : LogRecord :=
  { source := .transport
    level := .info
    message := "waiting for peer"
    fields :=
      [("kind", .text config.transport.name),
       ("local_addr", .text listen.text)] }

def startRecord (config : Config) (listen : Net.SocketAddress) : LogRecord :=
  { source := .engine
    level := .info
    message := "session started"
    fields :=
      [("kind", .text config.transport.name),
       ("local_addr", .text listen.text),
       ("execution", .text config.execution.name)] }

def startLog (config : Config) (listen : Net.SocketAddress) :
    List LogRecord :=
  [listenRecord config listen, startRecord config listen]

def snapshot (engine : Engine) : Snapshot :=
  .ofMachine engine.machine engine.frames

/-- Asks the session to stop; honoured at the start of the next tick. -/
def requestStop (engine : Engine) : Engine :=
  { engine with stopRequested := true }

def press (engine : Engine) (intents : List Intent) : Engine :=
  { engine with intents := engine.intents.pushAll intents }

def complete (engine : Engine) (events : List Event) : Engine :=
  { engine with events := engine.events.pushAll events }

def termination (engine : Engine) : Termination :=
  engine.machine.termination.getD .stopped

/-! ### The parts of a tick -/

def feed (around : Surroundings ω σ) (driven : Driven ω)
    (steps : List Machine.Step) : Driven ω :=
  let machine := driven.engine.machine
  let (world, events) := around.callAll driven.world (machine.callsOf steps)
  let engine :=
    { driven.engine with machine := machine.run steps }.complete events
  { engine := engine
    world := around.notice world engine
    log := driven.log ++ (machine.reactions steps).flatMap Reaction.log }

def takeIntents (around : Surroundings ω σ) (driven : Driven ω) :
    Driven ω :=
  let (intents, rest) := driven.engine.intents.drain
  let now := around.clock driven.world
  feed around
    { driven with engine := { driven.engine with intents := rest } }
    (intents.map fun intent => .intent intent now)

def goOn (around : Surroundings ω σ) (driven : Driven ω) (steps : List σ) :
    Driven ω :=
  let (world, events) := around.stepAll driven.world steps
  { driven with
    engine := driven.engine.complete events
    world := world }

def takeEvents (around : Surroundings ω σ) (driven : Driven ω) : Driven ω :=
  let (events, rest) := driven.engine.events.drain
  feed around
    { driven with engine := { driven.engine with events := rest } }
    (events.map .event)

def endRecord (engine : Engine) : LogRecord :=
  { source := .engine
    level := .info
    message := "session ended"
    fields :=
      [("reason", .text engine.termination.detail),
       ("frames", .text (toString engine.frames))] }

/-- Ends the session: the machine is shut down unless it has ended, everything
that waits is called off, and the runtime is given up. -/
def teardown (around : Surroundings ω σ) (reason : Termination)
    (driven : Driven ω) : Driven ω :=
  let ended := feed around driven [.shutdown reason]
  let engine :=
    { ended.engine with
      cancelled := true
      ownsRuntime := false
      running := false }
  { engine := engine
    world := around.notice ended.world engine
    log := ended.log ++ [engine.endRecord] }

def endTick (around : Surroundings ω σ) (reason : Termination) (frontend : φ)
    (shown : Option Snapshot) (driven : Driven ω) : Tick ω φ :=
  let ended := teardown around reason driven
  { engine := ended.engine
    world := ended.world
    frontend := frontend
    outcome := .stop ended.engine.termination
    shown := shown
    log := ended.log }

/-- A frame of a session that goes on: intents, events, rendering, and the
end if the machine has ended.  The surroundings may take some steps after the
intents and before the events. -/
def frame (around : Surroundings ω σ) (view : Frontend φ) (frontend : φ)
    (meanwhile : List σ) (driven : Driven ω) : Tick ω φ :=
  let applied :=
    takeEvents around (goOn around (takeIntents around driven) meanwhile)
  let snapshot := applied.engine.snapshot
  let rendering := view.render frontend snapshot (around.clock applied.world)
  let after : Driven ω :=
    { applied with
      engine :=
        { applied.engine.press rendering.intents with
          frames := applied.engine.frames + 1 }
      log := applied.log ++ rendering.log }
  match after.engine.machine.termination with
  | some reason =>
      endTick around reason rendering.state (some snapshot) after
  | none =>
      { engine := after.engine
        world := after.world
        frontend := rendering.state
        outcome := .proceed
        shown := some snapshot
        log := after.log }

/-! ### Ticks -/

def tick (around : Surroundings ω σ) (view : Frontend φ) (frontend : φ)
    (meanwhile : List σ) (engine : Engine) (world : ω) : Tick ω φ :=
  if !engine.running then
    { engine := engine
      world := world
      frontend := frontend
      outcome := .stop engine.termination }
  else if engine.stopRequested then
    endTick around .stopped frontend none
      { engine := engine
        world := world
        log :=
          [{ source := .engine
             level := .info
             message := "stopping due to stop signal" }] }
  else if view.closeRequested frontend then
    endTick around .windowClosed frontend none
      { engine := engine
        world := world
        log :=
          [{ source := .engine
             level := .info
             message := "stopping due to closed front-end" }] }
  else
    frame around view frontend meanwhile
      { engine := engine
        world := world }

/-- Letting go of an engine ends a session that still runs. -/
def release (around : Surroundings ω σ) (engine : Engine) (world : ω) :
    Driven ω :=
  let driven : Driven ω :=
    { engine := engine
      world := world }
  if engine.running then teardown around .stopped driven else driven

end Engine

end LatencyBench

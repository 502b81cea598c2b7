/-
Sessions: an engine whose surroundings are a wire.

A session starts by opening its listener, which is the one thing that can
keep it from starting.  With input and output between the frames, the tasks
of the transport run at the end of each tick that does not end the session;
with input and output beside the frames, they run all the time.
-/

import LatencyBench.Net.Network
import LatencyBench.Wire

namespace LatencyBench

open Net

abbrev Session (φ : Type) := Run Wire φ

namespace Session

variable {φ : Type}

def start (network : Network) (config : Config) (frontend : φ) :
    Except StartError (Session φ) :=
  match network.bind config.bindAddress with
  | .error error => .error (.bind config.listenAddress error)
  | .ok () =>
      .ok
        { Run.start config (Wire.start config.transport) frontend with
          log := Engine.startLog config config.listenAddress }

def step (view : Frontend φ) (session : Session φ) (step : RunStep WireStep) :
    Session φ :=
  Run.step Wire.surroundings view session step

/-- How often everything is let run and arrive before it counts as at
rest. -/
def restRounds : Nat := 8

def rest (session : Session φ) : Session φ :=
  Run.rest (fun wire => wire.settle restRounds) session

/-- What comes after any step: beside the frames the tasks never wait for a
tick. -/
def afterStep (session : Session φ) : Session φ :=
  match session.engine.config.execution with
  | .cooperative => session
  | .background => session.rest

def tick (view : Frontend φ) (session : Session φ) : Session φ :=
  let ticked := session.step view (.tick [])
  if ticked.engine.running then ticked.rest else ticked

def lastOutcome (session : Session φ) : Option Outcome :=
  session.outcomes.getLast?

def isIdle (session : Session φ) : Bool :=
  session.engine.events.isEmpty && session.engine.intents.isEmpty

/-- Ticks until nothing is left to do or the session has ended, at least once
and at most `limit + 1` times. -/
def settle (view : Frontend φ) : Nat → Session φ → Session φ
  | 0, session => session.tick view
  | limit + 1, session =>
      let ticked := session.tick view
      if ticked.isIdle || !ticked.engine.running then ticked
      else settle view limit ticked

def untilStop (view : Frontend φ) (limit : Nat) (session : Session φ) :
    Session φ × Option Termination :=
  Run.untilStop Wire.surroundings view (fun wire => wire.settle restRounds)
    limit session

end Session

end LatencyBench

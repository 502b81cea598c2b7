/-
Runs of an engine: everything that can happen to it, one step after the
other, and what came of it so far.

Between two ticks anyone may press the send control or ask for a stop, and
the surroundings go on by themselves.
-/

import LatencyBench.Engine

namespace LatencyBench

/-- An engine with its surroundings and its front-end, and what has been
shown, answered and logged so far. -/
structure Run (ω φ : Type) where
  engine : Engine
  world : ω
  frontend : φ
  shown : List Snapshot
  outcomes : List Outcome
  log : List LogRecord

/-- One step of a run in surroundings with steps `σ`.  During a tick the
surroundings may take steps of their own. -/
inductive RunStep (σ : Type) where
  | press (intents : List Intent)
  | beside (step : σ)
  | requestStop
  | tick (meanwhile : List σ)
  | release
deriving Repr

namespace Run

variable {ω σ φ : Type}

def start (config : Config) (world : ω) (frontend : φ) : Run ω φ :=
  { engine := .start config
    world := world
    frontend := frontend
    shown := []
    outcomes := []
    log := [] }

def afterTick (run : Run ω φ) (tick : Tick ω φ) : Run ω φ :=
  { engine := tick.engine
    world := tick.world
    frontend := tick.frontend
    shown := run.shown ++ tick.shown.toList
    outcomes := run.outcomes ++ [tick.outcome]
    log := run.log ++ tick.log }

def tick (around : Surroundings ω σ) (view : Frontend φ) (run : Run ω φ)
    (meanwhile : List σ) : Run ω φ :=
  run.afterTick
    (run.engine.tick around view run.frontend meanwhile run.world)

def step (around : Surroundings ω σ) (view : Frontend φ) (run : Run ω φ) :
    RunStep σ → Run ω φ
  | .press intents => { run with engine := run.engine.press intents }
  | .beside step =>
      let (world, events) := around.step run.world step
      { run with
        engine := run.engine.complete events
        world := world }
  | .requestStop => { run with engine := run.engine.requestStop }
  | .tick meanwhile => run.tick around view meanwhile
  | .release =>
      let released := run.engine.release around run.world
      { run with
        engine := released.engine
        world := released.world
        log := run.log ++ released.log }

def steps (around : Surroundings ω σ) (view : Frontend φ) (run : Run ω φ)
    (all : List (RunStep σ)) : Run ω φ :=
  all.foldl (step around view) run

def rest (settle : ω → ω × List Event) (run : Run ω φ) : Run ω φ :=
  let (world, events) := settle run.world
  { run with
    engine := run.engine.complete events
    world := world }

/-- Ticks until the session has ended, at most `limit` times; after each tick
that is not the last the surroundings come to rest.  The answer is the reason
of the end, if it was reached. -/
def untilStop (around : Surroundings ω σ) (view : Frontend φ)
    (settle : ω → ω × List Event) :
    Nat → Run ω φ → Run ω φ × Option Termination
  | 0, run => (run, none)
  | limit + 1, run =>
      let ticked := run.tick around view []
      match ticked.outcomes.getLast? with
      | some (.stop reason) => (ticked, some reason)
      | _ => untilStop around view settle limit (ticked.rest settle)

end Run

end LatencyBench

/-
An engine in the hands of its users.

Whoever has an engine may tick it, each time with another front-end, and
anyone may press the send control, ask for a stop, or have the surroundings go
on.  What the ticks have shown and answered so far is kept beside the engine.
-/

import LatencyBench.Proofs.Run.Ticks

namespace LatencyBench

variable {ω σ : Type}

/-- What can be done with an engine.  What others do during a tick counts as
done before it if the tick notices, and else as done after it. -/
inductive EngineUse (σ : Type) : Type 1 where
  | press (intents : List Intent)
  | requestStop
  | beside (step : σ)
  | tick {φ : Type} (view : Frontend φ) (frontend : φ) (meanwhile : List σ)

def EngineUse.isTick : EngineUse σ → Bool
  | .tick .. => true
  | _ => false

/-- An engine in its surroundings, with what its ticks have shown and answered
so far. -/
structure Usage (ω : Type) where
  engine : Engine
  world : ω
  shown : List Snapshot
  outcomes : List Outcome

namespace Usage

def start (config : Config) (world : ω) : Usage ω :=
  { engine := .start config
    world := world
    shown := []
    outcomes := [] }

def after (around : Surroundings ω σ) (usage : Usage ω) :
    EngineUse σ → Usage ω
  | .press intents => { usage with engine := usage.engine.press intents }
  | .requestStop => { usage with engine := usage.engine.requestStop }
  | .beside step =>
      { usage with
        engine := usage.engine.complete (around.step usage.world step).2
        world := (around.step usage.world step).1 }
  | .tick view frontend meanwhile =>
      let tick :=
        usage.engine.tick around view frontend meanwhile usage.world
      { engine := tick.engine
        world := tick.world
        shown := usage.shown ++ tick.shown.toList
        outcomes := usage.outcomes ++ [tick.outcome] }

def run (around : Surroundings ω σ) (usage : Usage ω)
    (uses : List (EngineUse σ)) : Usage ω :=
  uses.foldl (after around) usage

variable {around : Surroundings ω σ} {usage : Usage ω}

theorem run_keeps (around : Surroundings ω σ) (kept : Usage ω → Prop)
    (keeps : ∀ usage use, kept usage → kept (usage.after around use))
    (usage : Usage ω) (holds : kept usage) (uses : List (EngineUse σ)) :
    kept (usage.run around uses) := by
  induction uses generalizing usage with
  | nil => exact holds
  | cons use rest inductionHypothesis =>
      exact inductionHypothesis (usage.after around use)
        (keeps usage use holds)

theorem after_inStep (around : Surroundings ω σ) (usage : Usage ω)
    (use : EngineUse σ) (inStep : usage.engine.InStep) :
    (usage.after around use).engine.InStep := by
  cases use with
  | press intents => exact { inStep with }
  | requestStop => exact { inStep with }
  | beside step => exact { inStep with }
  | tick view frontend meanwhile =>
      exact inStep.tick around view frontend meanwhile usage.world

theorem run_inStep (around : Surroundings ω σ) (config : Config) (world : ω)
    (uses : List (EngineUse σ)) :
    ((start config world).run around uses).engine.InStep :=
  run_keeps around (fun usage => usage.engine.InStep) (after_inStep around) _
    (Engine.start_inStep config) uses

/-! ### Between two ticks -/

/-- Between two ticks nothing but the queues and the stop request changes, and
nothing is taken from the queues. -/
structure Between (before after : Usage ω) : Prop where
  machine : after.engine.machine = before.engine.machine
  running : after.engine.running = before.engine.running
  frames : after.engine.frames = before.engine.frames
  intents : before.engine.intents.toList <+: after.engine.intents.toList

theorem between_after (use : EngineUse σ) (quiet : use.isTick = false) :
    Between usage (usage.after around use) := by
  cases use with
  | press intents =>
      refine ⟨rfl, rfl, rfl, ?_⟩
      simp [after, Engine.press]
  | requestStop => exact ⟨rfl, rfl, rfl, List.prefix_rfl⟩
  | beside step => exact ⟨rfl, rfl, rfl, List.prefix_rfl⟩
  | tick view frontend meanwhile => cases quiet

theorem between_run (usage : Usage ω) (uses : List (EngineUse σ))
    (quiet : ∀ use ∈ uses, use.isTick = false) :
    Between usage (usage.run around uses) := by
  induction uses generalizing usage with
  | nil => exact ⟨rfl, rfl, rfl, List.prefix_rfl⟩
  | cons use rest inductionHypothesis =>
      have first : Between usage (usage.after around use) :=
        between_after use (quiet use List.mem_cons_self)
      have later := inductionHypothesis (usage.after around use)
        fun other member => quiet other (List.mem_cons_of_mem use member)
      exact
        { machine := later.machine.trans first.machine
          running := later.running.trans first.running
          frames := later.frames.trans first.frames
          intents := first.intents.trans later.intents }

end Usage

end LatencyBench

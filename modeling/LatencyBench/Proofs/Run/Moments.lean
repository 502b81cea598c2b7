/-
The moments of a run: every step that the machine of an engine takes, with the
machine and the surroundings as they are at that moment.

A tick steps the machine many times and shows only what comes of it.  The
moments open a tick up; they are read off the same definitions, and together
they lead from the machine before a run to the machine after it.
-/

import LatencyBench.Run

namespace LatencyBench

variable {ω σ φ : Type}

/-- A step of a machine, the machine that takes it, and its surroundings once
the calls of all earlier steps have been carried out. -/
structure Moment (ω : Type) where
  machine : Machine
  step : Machine.Step
  world : ω

def Machine.moments (around : Surroundings ω σ) (machine : Machine)
    (world : ω) : List Machine.Step → List (Moment ω)
  | [] => []
  | step :: rest =>
      { machine := machine
        step := step
        world := world } ::
        (machine.after step).moments around
          (around.callAll world (machine.react step).calls).1 rest

/-- The moments of the steps that an engine feeds its machine with. -/
def Driven.moments (around : Surroundings ω σ) (driven : Driven ω)
    (steps : List Machine.Step) : List (Moment ω) :=
  driven.engine.machine.moments around driven.world steps

namespace Engine

def intentSteps (around : Surroundings ω σ) (driven : Driven ω) :
    List Machine.Step :=
  driven.engine.intents.toList.map fun intent =>
    .intent intent (around.clock driven.world)

def eventSteps (driven : Driven ω) : List Machine.Step :=
  driven.engine.events.toList.map .event

def closingMoments (around : Surroundings ω σ) (driven : Driven ω) :
    List (Moment ω) :=
  match driven.engine.machine.termination with
  | none => []
  | some reason => driven.moments around [.shutdown reason]

def frameMoments (around : Surroundings ω σ) (meanwhile : List σ)
    (driven : Driven ω) : List (Moment ω) :=
  let ready := goOn around (takeIntents around driven) meanwhile
  driven.moments around (intentSteps around driven) ++
    ready.moments around (eventSteps ready) ++
    closingMoments around (takeEvents around ready)

def tickMoments (around : Surroundings ω σ) (view : Frontend φ)
    (frontend : φ) (meanwhile : List σ) (engine : Engine) (world : ω) :
    List (Moment ω) :=
  let driven : Driven ω :=
    { engine := engine
      world := world }
  if !engine.running then []
  else if engine.stopRequested then
    driven.moments around [.shutdown .stopped]
  else if view.closeRequested frontend then
    driven.moments around [.shutdown .windowClosed]
  else frameMoments around meanwhile driven

def releaseMoments (around : Surroundings ω σ) (engine : Engine)
    (world : ω) : List (Moment ω) :=
  let driven : Driven ω :=
    { engine := engine
      world := world }
  if engine.running then driven.moments around [.shutdown .stopped] else []

end Engine

namespace Run

def stepMoments (around : Surroundings ω σ) (view : Frontend φ)
    (run : Run ω φ) : RunStep σ → List (Moment ω)
  | .tick meanwhile =>
      run.engine.tickMoments around view run.frontend meanwhile run.world
  | .release => run.engine.releaseMoments around run.world
  | _ => []

def moments (around : Surroundings ω σ) (view : Frontend φ)
    (run : Run ω φ) : List (RunStep σ) → List (Moment ω)
  | [] => []
  | step :: rest =>
      run.stepMoments around view step ++
        (run.step around view step).moments around view rest

/-- The engine of a run in the middle of a tick: the queued intents have been
applied, and the surroundings have gone on for some steps. -/
def amid (around : Surroundings ω σ) (run : Run ω φ) (meanwhile : List σ) :
    Driven ω :=
  Engine.goOn around
    (Engine.takeIntents around
      { engine := run.engine
        world := run.world }) meanwhile

end Run

/-! ### The moments make up the run -/

/-- Moments that lead from one machine to another, step after step. -/
inductive Leads : Machine → List (Moment ω) → Machine → Prop where
  | stay (machine : Machine) : Leads machine [] machine
  | take (moment : Moment ω) (rest : List (Moment ω)) (last : Machine)
      (onward : Leads (moment.machine.after moment.step) rest last) :
      Leads moment.machine (moment :: rest) last

theorem Leads.append {first middle last : Machine}
    {earlier later : List (Moment ω)} (there : Leads first earlier middle)
    (onward : Leads middle later last) :
    Leads first (earlier ++ later) last := by
  induction there with
  | stay machine => exact onward
  | take moment rest middle _ inductionHypothesis =>
      exact .take moment _ last (inductionHypothesis onward)

theorem Machine.moments_lead (around : Surroundings ω σ) (machine : Machine)
    (world : ω) (steps : List Machine.Step) :
    Leads machine (machine.moments around world steps)
      (machine.run steps) := by
  induction steps generalizing machine world with
  | nil => exact .stay machine
  | cons step rest inductionHypothesis =>
      have onward := inductionHypothesis (machine.after step)
        (around.callAll world (machine.react step).calls).1
      exact .take
        { machine := machine
          step := step
          world := world } _ _ onward

theorem Machine.moments_step_mem {around : Surroundings ω σ}
    (machine : Machine) (world : ω) (steps : List Step) {moment : Moment ω}
    (member : moment ∈ machine.moments around world steps) :
    moment.step ∈ steps := by
  induction steps generalizing machine world with
  | nil => cases member
  | cons step rest inductionHypothesis =>
      rcases List.mem_cons.mp member with here | later
      · rw [here]
        exact List.mem_cons_self
      · exact List.mem_cons_of_mem step (inductionHypothesis _ _ later)

namespace Engine

variable (around : Surroundings ω σ)

@[simp] theorem takeIntents_machine (driven : Driven ω) :
    (takeIntents around driven).engine.machine =
      driven.engine.machine.run (intentSteps around driven) := rfl

@[simp] theorem goOn_machine (driven : Driven ω) (steps : List σ) :
    (goOn around driven steps).engine.machine = driven.engine.machine := rfl

@[simp] theorem teardown_machine (reason : Termination)
    (driven : Driven ω) :
    (teardown around reason driven).engine.machine =
      driven.engine.machine.run [.shutdown reason] := rfl

theorem frame_leads (view : Frontend φ) (frontend : φ) (meanwhile : List σ)
    (driven : Driven ω) :
    Leads driven.engine.machine (frameMoments around meanwhile driven)
      (frame around view frontend meanwhile driven).engine.machine := by
  have pressed := driven.engine.machine.moments_lead around driven.world
    (intentSteps around driven)
  generalize made :
    goOn around (takeIntents around driven) meanwhile = ready
  have machine : driven.engine.machine.run (intentSteps around driven) =
      ready.engine.machine := by
    rw [← made, goOn_machine, takeIntents_machine]
  rw [machine] at pressed
  have applied := ready.engine.machine.moments_lead around ready.world
    (eventSteps ready)
  unfold frame frameMoments closingMoments
  rw [made]
  refine (pressed.append applied).append ?_
  cases finished : (takeEvents around ready).engine.machine.termination with
  | none =>
      simp only [Engine.press, finished]
      exact .stay _
  | some reason =>
      simp only [Engine.press, finished]
      exact Machine.moments_lead around _ _ [.shutdown reason]

theorem tick_leads (view : Frontend φ) (frontend : φ) (meanwhile : List σ)
    (engine : Engine) (world : ω) :
    Leads engine.machine
      (engine.tickMoments around view frontend meanwhile world)
      (engine.tick around view frontend meanwhile world).engine.machine := by
  unfold tick tickMoments
  cases running : engine.running with
  | false => exact .stay _
  | true =>
      cases stopping : engine.stopRequested with
      | true =>
          exact engine.machine.moments_lead around world
            [.shutdown .stopped]
      | false =>
          cases closing : view.closeRequested frontend with
          | true =>
              exact engine.machine.moments_lead around world
                [.shutdown .windowClosed]
          | false =>
              exact frame_leads around view frontend meanwhile
                { engine := engine
                  world := world }

theorem release_leads (engine : Engine) (world : ω) :
    Leads engine.machine (engine.releaseMoments around world)
      (engine.release around world).engine.machine := by
  unfold release releaseMoments
  cases running : engine.running with
  | false => exact .stay _
  | true => exact engine.machine.moments_lead around world [.shutdown .stopped]

end Engine

namespace Run

theorem step_leads (around : Surroundings ω σ) (view : Frontend φ)
    (run : Run ω φ) (step : RunStep σ) :
    Leads run.engine.machine (run.stepMoments around view step)
      (run.step around view step).engine.machine := by
  cases step with
  | press intents => exact .stay _
  | beside step => exact .stay _
  | requestStop => exact .stay _
  | tick meanwhile =>
      exact Engine.tick_leads around view run.frontend meanwhile run.engine
        run.world
  | release => exact Engine.release_leads around run.engine run.world

/-- The moments of a run lead from the machine before it to the machine after
it, so no step of the machine is left out and none is made up. -/
theorem steps_lead (around : Surroundings ω σ) (view : Frontend φ)
    (run : Run ω φ) (all : List (RunStep σ)) :
    Leads run.engine.machine (run.moments around view all)
      (run.steps around view all).engine.machine := by
  induction all generalizing run with
  | nil => exact .stay _
  | cons step rest inductionHypothesis =>
      exact (step_leads around view run step).append
        (inductionHypothesis (run.step around view step))

end Run

end LatencyBench

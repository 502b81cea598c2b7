/-
What one tick can do to an engine.

A tick of an engine that has stopped does nothing.  A tick that finds a stop
request or a closed front-end shuts the machine down and does nothing else.
Any other tick is a frame.  What is later said about ticks rests on this one
case distinction.
-/

import LatencyBench.Proofs.Machine.Measurement
import LatencyBench.Proofs.Run.Moments

namespace LatencyBench

variable {ω σ φ : Type}

theorem Machine.after_shutdown (machine : Machine) (reason : Termination)
    (going : machine.phase ≠ .terminated) :
    machine.after (.shutdown reason) = machine.ended reason := by
  obtain ⟨reached, calls, next, taken⟩ :=
    machine.exists_transition (.shutdown reason)
  rw [next]
  cases taken with
  | shut _ _ => rfl
  | ignore _ finished => exact absurd finished going

namespace Engine

/-- Whether an engine runs exactly as long as its machine goes on, and for as
long owns its runtime and has not called off what waits. -/
structure InStep (engine : Engine) : Prop where
  consistent : engine.machine.Consistent
  machine : engine.running = true ↔ engine.machine.phase ≠ .terminated
  runtime : engine.running = true ↔ engine.ownsRuntime = true
  token : engine.running = true ↔ engine.cancelled = false

/-- An engine in the middle of a frame: the intents have been applied, and the
surroundings have gone on. -/
def midway (around : Surroundings ω σ) (meanwhile : List σ) (engine : Engine)
    (world : ω) : Driven ω :=
  goOn around
    (takeIntents around
      { engine := engine
        world := world }) meanwhile

def framedMachine (around : Surroundings ω σ) (meanwhile : List σ)
    (engine : Engine) (world : ω) : Machine :=
  (engine.midway around meanwhile world).engine.machine.run
    (eventSteps (engine.midway around meanwhile world))

def rendering (around : Surroundings ω σ) (view : Frontend φ) (frontend : φ)
    (meanwhile : List σ) (engine : Engine) (world : ω) : Rendering φ :=
  view.render frontend
    (.ofMachine (engine.framedMachine around meanwhile world) engine.frames)
    (around.clock
      (takeEvents around (engine.midway around meanwhile world)).world)

/-- What a frame leads to, `last` being the machine at its end and `rendering`
what the front-end made of it. -/
structure Framed (engine : Engine) (last : Machine) (rendering : Rendering φ)
    (tick : Tick ω φ) : Prop where
  machine : tick.engine.machine = last
  shown : tick.shown = some (.ofMachine last engine.frames)
  frontend : tick.frontend = rendering.state
  intents : tick.engine.intents.toList = rendering.intents
  frames : tick.engine.frames = engine.frames + 1
  wanted : tick.engine.stopRequested = engine.stopRequested
  proceeds : last.termination = none →
    tick.outcome = .proceed ∧ tick.engine.running = engine.running ∧
      tick.engine.ownsRuntime = engine.ownsRuntime ∧
      tick.engine.cancelled = engine.cancelled
  ends : ∀ reason, last.termination = some reason →
    tick.outcome = .stop reason ∧ tick.engine.running = false ∧
      tick.engine.ownsRuntime = false ∧ tick.engine.cancelled = true

/-- What a tick leads to that ends the session at its start: only the machine
is shut down. -/
structure Halted (frontend : φ) (engine : Engine) (reason : Termination)
    (tick : Tick ω φ) : Prop where
  machine : tick.engine.machine = engine.machine.ended reason
  shown : tick.shown = none
  frontend : tick.frontend = frontend
  intents : tick.engine.intents = engine.intents
  events : engine.events.toList <+: tick.engine.events.toList
  frames : tick.engine.frames = engine.frames
  outcome : tick.outcome = .stop reason
  running : tick.engine.running = false
  runtime : tick.engine.ownsRuntime = false
  token : tick.engine.cancelled = true

/-- The four kinds of ticks. -/
inductive Ticked (around : Surroundings ω σ) (view : Frontend φ)
    (frontend : φ) (meanwhile : List σ) (engine : Engine) (world : ω)
    (tick : Tick ω φ) : Prop where
  | idle (stopped : engine.running = false)
      (same : tick =
        { engine := engine
          world := world
          frontend := frontend
          outcome := .stop engine.termination })
  | stopped (running : engine.running = true)
      (wanted : engine.stopRequested = true)
      (halted : Halted frontend engine .stopped tick)
  | closed (running : engine.running = true)
      (wanted : engine.stopRequested = false)
      (left : view.closeRequested frontend = true)
      (halted : Halted frontend engine .windowClosed tick)
  | framed (running : engine.running = true)
      (wanted : engine.stopRequested = false)
      (shown : view.closeRequested frontend = false)
      (framed : Framed engine (engine.framedMachine around meanwhile world)
        (engine.rendering around view frontend meanwhile world) tick)

variable {around : Surroundings ω σ} {view : Frontend φ} {frontend : φ}
  {meanwhile : List σ} {engine : Engine} {world : ω} {reached : Tick ω φ}

/-! ### The end of a session -/

section EndTick

variable (around : Surroundings ω σ) (reason : Termination) (frontend : φ)
  (shown : Option Snapshot) (driven : Driven ω)

@[simp] theorem endTick_machine :
    (endTick around reason frontend shown driven).engine.machine =
      driven.engine.machine.after (.shutdown reason) := rfl

@[simp] theorem endTick_intents :
    (endTick around reason frontend shown driven).engine.intents =
      driven.engine.intents := rfl

@[simp] theorem endTick_frames :
    (endTick around reason frontend shown driven).engine.frames =
      driven.engine.frames := rfl

@[simp] theorem endTick_wanted :
    (endTick around reason frontend shown driven).engine.stopRequested =
      driven.engine.stopRequested := rfl

theorem endTick_outcome :
    (endTick around reason frontend shown driven).outcome =
      .stop ((driven.engine.machine.after
        (.shutdown reason)).termination.getD .stopped) := rfl

theorem endTick_events :
    driven.engine.events.toList <+:
      (endTick around reason frontend shown driven).engine.events.toList := by
  change _ <+: (driven.engine.events.pushAll _).toList
  rw [Queue.toList_pushAll]
  exact List.prefix_append _ _

end EndTick

/-! ### Ticks without a frame -/

theorem tick_over (stopped : engine.running = false) :
    engine.tick around view frontend meanwhile world =
      { engine := engine
        world := world
        frontend := frontend
        outcome := .stop engine.termination } := by
  simp [Engine.tick, stopped]

theorem endTick_halted (reason : Termination)
    (going : engine.machine.phase ≠ .terminated) (log : List LogRecord) :
    Halted frontend engine reason
      (endTick around reason frontend none
        { engine := engine
          world := world
          log := log }) := by
  have machine := engine.machine.after_shutdown reason going
  exact
    { machine := machine
      shown := rfl
      frontend := rfl
      intents := rfl
      events := endTick_events around reason frontend none
        { engine := engine
          world := world
          log := log }
      frames := rfl
      outcome := by rw [endTick_outcome, machine]; rfl
      running := rfl
      runtime := rfl
      token := rfl }

theorem InStep.halted_stop (inStep : engine.InStep)
    (running : engine.running = true) (wanted : engine.stopRequested = true) :
    Halted frontend engine .stopped
      (engine.tick around view frontend meanwhile world) := by
  have going := inStep.machine.mp running
  simpa [Engine.tick, running, wanted] using endTick_halted .stopped going _

theorem InStep.halted_close (inStep : engine.InStep)
    (running : engine.running = true) (wanted : engine.stopRequested = false)
    (left : view.closeRequested frontend = true) :
    Halted frontend engine .windowClosed
      (engine.tick around view frontend meanwhile world) := by
  have going := inStep.machine.mp running
  simpa [Engine.tick, running, wanted, left] using
    endTick_halted .windowClosed going _

/-! ### Frames -/

/-- Up to the middle of a frame a machine has taken the intents that waited,
and so it has sent a command exactly if the send control was enabled and
somebody had pressed it. -/
theorem InStep.midway_machine (inStep : engine.InStep) :
    (engine.midway around meanwhile world).engine.machine =
      if engine.snapshot.canSend = true ∧ engine.intents.isEmpty = false then
        engine.machine.issued (around.clock world)
      else engine.machine := by
  have applied : (engine.midway around meanwhile world).engine.machine =
      engine.machine.run (engine.intents.toList.map fun intent =>
        .intent intent (around.clock world)) := rfl
  rw [applied]
  split
  · rename_i pressed
    obtain ⟨enabled, some⟩ := pressed
    simp only [snapshot, Snapshot.canSend, Snapshot.ofMachine,
      Machine.isConnected, Bool.and_eq_true, Bool.not_eq_true'] at enabled
    simp only [Queue.isEmpty_eq, List.isEmpty_eq_false_iff] at some
    exact Machine.run_presses_issued _ _ _ inStep.consistent enabled.1
      enabled.2 some
  · rename_i ignored
    cases waiting : engine.intents.toList with
    | nil => rfl
    | cons intent rest =>
        apply Machine.run_presses_ignored
        simp only [snapshot, Snapshot.canSend, Snapshot.ofMachine,
          Machine.isConnected, Queue.isEmpty_eq, waiting, List.isEmpty_cons,
          and_true, Bool.and_eq_true, Bool.not_eq_true'] at ignored
        cases connected : engine.machine.phase.isConnected with
        | false => exact .inl rfl
        | true => simpa [connected] using ignored

theorem InStep.midway_going (inStep : engine.InStep)
    (going : engine.machine.phase ≠ .terminated) :
    (engine.midway around meanwhile world).engine.machine.phase ≠
      .terminated := by
  rw [inStep.midway_machine]
  split
  · exact nofun
  · exact going

theorem InStep.midway_consistent (inStep : engine.InStep) :
    (engine.midway around meanwhile world).engine.machine.Consistent := by
  exact Machine.run_keeps _ Machine.after_consistent _ inStep.consistent _

theorem InStep.framed_consistent (inStep : engine.InStep) :
    (engine.framedMachine around meanwhile world).Consistent :=
  Machine.run_keeps _ Machine.after_consistent _ inStep.midway_consistent _

theorem tick_frame (running : engine.running = true)
    (wanted : engine.stopRequested = false)
    (shown : view.closeRequested frontend = false) :
    engine.tick around view frontend meanwhile world =
      frame around view frontend meanwhile
        { engine := engine
          world := world } := by
  simp [Engine.tick, running, wanted, shown]

theorem frame_eq :
    frame around view frontend meanwhile
        { engine := engine
          world := world } =
      let rendering :=
        engine.rendering around view frontend meanwhile world
      let applied := takeEvents around (engine.midway around meanwhile world)
      let after : Driven ω :=
        { applied with
          engine :=
            { applied.engine.press rendering.intents with
              frames := engine.frames + 1 }
          log := applied.log ++ rendering.log }
      let snapshot : Snapshot :=
        .ofMachine (engine.framedMachine around meanwhile world) engine.frames
      match (engine.framedMachine around meanwhile world).termination with
      | some reason =>
          endTick around reason rendering.state (some snapshot) after
      | none =>
          { engine := after.engine
            world := after.world
            frontend := rendering.state
            outcome := .proceed
            shown := some snapshot
            log := after.log } := rfl

theorem InStep.framed (inStep : engine.InStep)
    (running : engine.running = true) (wanted : engine.stopRequested = false)
    (shown : view.closeRequested frontend = false) :
    Framed engine (engine.framedMachine around meanwhile world)
      (engine.rendering around view frontend meanwhile world)
      (engine.tick around view frontend meanwhile world) := by
  have consistent : (engine.framedMachine around meanwhile world).Consistent :=
    inStep.framed_consistent
  rw [tick_frame running wanted shown, frame_eq]
  dsimp only
  generalize engine.rendering around view frontend meanwhile world = rendering
  cases finished :
      (engine.framedMachine around meanwhile world).termination with
  | none =>
      refine
        { machine := rfl
          shown := rfl
          frontend := rfl
          intents := Queue.toList_pushAll _ _
          frames := rfl
          wanted := rfl
          proceeds := fun _ => ⟨rfl, rfl, rfl, rfl⟩
          ends := ?_ }
      intro reason some
      cases finished.symm.trans some
  | some reason =>
      -- The machine has ended by itself, so shutting it down changes nothing.
      have ended := consistent.reported.mp (by rw [finished]; rfl)
      have still := Machine.after_of_terminated _ (.shutdown reason) ended
      refine
        { machine := by rw [endTick_machine]; exact still
          shown := rfl
          frontend := rfl
          intents := by rw [endTick_intents]; exact Queue.toList_pushAll _ _
          frames := by rw [endTick_frames]
          wanted := by rw [endTick_wanted]; rfl
          proceeds := ?_
          ends := ?_ }
      · intro none
        cases finished.symm.trans none
      · intro other same
        cases finished.symm.trans same
        refine ⟨?_, rfl, rfl, rfl⟩
        have reported := congrArg Machine.termination still
        rw [finished] at reported
        rw [endTick_outcome]
        exact congrArg (fun found : Option Termination =>
          Outcome.stop (found.getD .stopped)) reported

/-- A tick does not take back what it was asked. -/
@[simp] theorem tick_wanted :
    (engine.tick around view frontend meanwhile world).engine.stopRequested =
      engine.stopRequested := by
  unfold Engine.tick
  split
  · rfl
  split
  · rfl
  split
  · rfl
  rw [frame_eq]
  dsimp only
  split <;> rfl

theorem InStep.ticked (inStep : engine.InStep) (around : Surroundings ω σ)
    (view : Frontend φ) (frontend : φ) (meanwhile : List σ) (world : ω) :
    Ticked around view frontend meanwhile engine world
      (engine.tick around view frontend meanwhile world) := by
  cases running : engine.running with
  | false => exact .idle running (tick_over running)
  | true =>
      cases wanted : engine.stopRequested with
      | true => exact .stopped running wanted (inStep.halted_stop running wanted)
      | false =>
          cases shown : view.closeRequested frontend with
          | true =>
              exact .closed running wanted shown
                (inStep.halted_close running wanted shown)
          | false =>
              exact .framed running wanted shown
                (inStep.framed running wanted shown)

/-! ### Engine and machine stay in step -/

theorem start_inStep (config : Config) : (start config).InStep where
  consistent := Machine.start_consistent config.transport true
  machine := by simp [start, Machine.start]
  runtime := by simp [start]
  token := by simp [start]

theorem Halted.inStep {reason : Termination}
    (halted : Halted frontend engine reason reached) :
    reached.engine.InStep where
  consistent := by
    rw [halted.machine]
    exact Machine.ended_consistent _ reason
  machine := by simp [halted.running, halted.machine, Machine.ended]
  runtime := by simp [halted.running, halted.runtime]
  token := by simp [halted.running, halted.token]

theorem Framed.inStep {last : Machine} {rendering : Rendering φ}
    (framed : Framed engine last rendering reached) (inStep : engine.InStep)
    (running : engine.running = true) (consistent : last.Consistent) :
    reached.engine.InStep := by
  have machine := framed.machine
  cases finished : last.termination with
  | none =>
      obtain ⟨_, going, runtime, token⟩ := framed.proceeds finished
      have lasts : last.phase ≠ .terminated := by
        intro ended
        have reported := consistent.reported.mpr ended
        rw [finished] at reported
        cases reported
      refine
        { consistent := by rw [machine]; exact consistent
          machine := by simp [going, running, machine, lasts]
          runtime := by rw [going, runtime]; exact inStep.runtime
          token := by rw [going, token]; exact inStep.token }
  | some reason =>
      obtain ⟨_, stopped, runtime, token⟩ := framed.ends reason finished
      have ended := consistent.reported.mp (by rw [finished]; rfl)
      refine
        { consistent := by rw [machine]; exact consistent
          machine := by simp [stopped, machine, ended]
          runtime := by simp [stopped, runtime]
          token := by simp [stopped, token] }

theorem InStep.tick (inStep : engine.InStep) (around : Surroundings ω σ)
    (view : Frontend φ) (frontend : φ) (meanwhile : List σ) (world : ω) :
    (engine.tick around view frontend meanwhile world).engine.InStep := by
  cases inStep.ticked around view frontend meanwhile world with
  | idle _ same =>
      rw [same]
      exact inStep
  | stopped _ _ halted => exact halted.inStep
  | closed _ _ _ halted => exact halted.inStep
  | framed running _ _ framed =>
      exact framed.inStep inStep running inStep.framed_consistent

/-! ### Letting go -/

theorem release_over (stopped : engine.running = false) :
    engine.release around world =
      { engine := engine
        world := world } := by
  simp [release, stopped]

/-- Letting go of a running engine ends its session as a stop request does. -/
theorem InStep.released (inStep : engine.InStep)
    (running : engine.running = true) (around : Surroundings ω σ)
    (world : ω) (frontend : φ) :
    ∃ reached : Tick ω φ, Halted frontend engine .stopped reached ∧
      (engine.release around world).engine = reached.engine := by
  have halted : Halted frontend engine .stopped
      (endTick around .stopped frontend none
        { engine := engine
          world := world }) :=
    endTick_halted .stopped (inStep.machine.mp running) []
  refine ⟨_, halted, ?_⟩
  rw [release, if_pos running]
  rfl

theorem InStep.release (inStep : engine.InStep) (around : Surroundings ω σ)
    (world : ω) : (engine.release around world).engine.InStep := by
  cases running : engine.running with
  | false =>
      rw [release_over running]
      exact inStep
  | true =>
      obtain ⟨reached, halted, same⟩ :=
        inStep.released running around world ()
      rw [same]
      exact halted.inStep

end Engine

end LatencyBench

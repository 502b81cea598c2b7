/-
The send control is exact.

A frame sends one command if the send control was enabled before it and
somebody had pressed it, however often, and no command otherwise, whatever
events it takes.  What a user sees of the control is what counts: between two
frames the machine stays as it was last shown.
-/

import LatencyBench.Frontend.Scripted
import LatencyBench.Proofs.Machine.Conservation
import LatencyBench.Proofs.Run.Usage
import LatencyBench.Wire

namespace LatencyBench

variable {ω σ φ : Type}

theorem Machine.after_event_sends (machine : Machine) (event : Event) :
    (machine.after (.event event)).sends = machine.sends := by
  obtain ⟨reached, calls, next, taken⟩ :=
    machine.exists_transition (.event event)
  rw [next]
  cases taken with
  | adopt _ _ _ => rfl
  | write _ _ => rfl
  | answer _ _ _ _ _ _ => rfl
  | cancel _ => rfl
  | fail _ _ => rfl
  | ignore _ _ => rfl

theorem Machine.run_events_sends (machine : Machine) (events : List Event) :
    (machine.run (events.map .event)).sends = machine.sends := by
  induction events generalizing machine with
  | nil => rfl
  | cons event rest inductionHypothesis =>
      rw [List.map_cons, run_cons, inductionHypothesis, after_event_sends]

namespace Engine

variable {around : Surroundings ω σ} {view : Frontend φ} {frontend : φ}
  {meanwhile : List σ} {engine : Engine} {world : ω}

theorem InStep.framed_sends (inStep : engine.InStep)
    (around : Surroundings ω σ) (meanwhile : List σ) (world : ω) :
    (engine.framedMachine around meanwhile world).sends =
      engine.machine.sends +
        if engine.snapshot.canSend = true ∧ engine.intents.isEmpty = false
        then 1 else 0 := by
  rw [framedMachine, eventSteps, Machine.run_events_sends,
    inStep.midway_machine]
  split <;> rfl

theorem InStep.tick_sends (inStep : engine.InStep)
    (running : engine.running = true) (wanted : engine.stopRequested = false)
    (shown : view.closeRequested frontend = false) :
    (engine.tick around view frontend meanwhile world).engine.machine.sends =
      engine.machine.sends +
        if engine.snapshot.canSend = true ∧ engine.intents.isEmpty = false
        then 1 else 0 := by
  rw [(inStep.framed running wanted shown).machine]
  exact inStep.framed_sends around meanwhile world

end Engine

namespace Usage

variable {around : Surroundings ω σ} {usage : Usage ω}

/-- Whether a running engine looks as it was last shown, the number of the
frame apart. -/
def LooksAsShown (usage : Usage ω) : Prop :=
  usage.engine.running = true →
    ∀ snapshot, usage.shown.getLast? = some snapshot →
      usage.engine.snapshot = { snapshot with frame := usage.engine.frames }

theorem Between.looksAsShown {later : Usage ω} (between : Between usage later)
    (same : later.shown = usage.shown) (looks : usage.LooksAsShown) :
    later.LooksAsShown := by
  intro running snapshot last
  rw [same] at last
  rw [between.running] at running
  have before := looks running snapshot last
  rw [between.frames, ← before]
  simp only [Engine.snapshot, between.machine, between.frames]

theorem after_looksAsShown (use : EngineUse σ)
    (inStep : usage.engine.InStep) (looks : usage.LooksAsShown) :
    (usage.after around use).LooksAsShown := by
  cases use with
  | press intents =>
      exact (between_after (.press intents) rfl).looksAsShown rfl looks
  | requestStop =>
      exact (between_after .requestStop rfl).looksAsShown rfl looks
  | beside step =>
      exact (between_after (.beside step) rfl).looksAsShown rfl looks
  | @tick φ view frontend meanwhile =>
      intro running snapshot last
      change (usage.shown ++ _).getLast? = some snapshot at last
      change (usage.engine.tick around view frontend meanwhile
        usage.world).engine.running = true at running
      change (usage.engine.tick around view frontend meanwhile
        usage.world).engine.snapshot = { snapshot with
          frame := (usage.engine.tick around view frontend meanwhile
            usage.world).engine.frames }
      cases inStep.ticked around view frontend meanwhile usage.world with
      | idle stopped same =>
          rw [same, stopped] at running
          cases running
      | stopped _ _ halted =>
          rw [halted.running] at running
          cases running
      | closed _ _ _ halted =>
          rw [halted.running] at running
          cases running
      | framed _ _ _ framed =>
          rw [framed.shown, Option.toList_some, List.getLast?_concat] at last
          cases last
          rw [Engine.snapshot, framed.machine]
          rfl

theorem run_looksAsShown (around : Surroundings ω σ) (config : Config)
    (world : ω) (uses : List (EngineUse σ)) :
    ((start config world).run around uses).LooksAsShown := by
  have both := run_keeps around
    (fun usage => usage.engine.InStep ∧ usage.LooksAsShown)
    (fun usage use holds =>
      ⟨after_inStep around usage use holds.1,
        after_looksAsShown use holds.1 holds.2⟩)
    (start config world)
    ⟨Engine.start_inStep config, fun _ _ last => by cases last⟩ uses
  exact both.2

/-- What the next frames of an engine make of its send control. -/
structure SendsExactly (around : Surroundings ω σ) (usage : Usage ω) :
    Prop where
  looks : usage.LooksAsShown
  sends : ∀ {φ : Type} (view : Frontend φ) (frontend : φ)
    (meanwhile : List σ),
    usage.engine.running = true → usage.engine.stopRequested = false →
    view.closeRequested frontend = false →
    (usage.engine.tick around view frontend meanwhile
        usage.world).engine.machine.sends =
      usage.engine.machine.sends +
        if usage.engine.snapshot.canSend = true ∧
            usage.engine.intents.isEmpty = false
        then 1 else 0
  pressed : ∀ {φ ψ : Type} (view : Frontend φ) (frontend : φ)
    (meanwhile : List σ) (snapshot : Snapshot) (between : List (EngineUse σ))
    (nextView : Frontend ψ) (nextFrontend : ψ) (nextMeanwhile : List σ),
    (usage.engine.tick around view frontend meanwhile usage.world).shown =
      some snapshot →
    (usage.engine.rendering around view frontend meanwhile
      usage.world).intents ≠ [] →
    (∀ use ∈ between, use.isTick = false) →
    let reached :=
      (usage.after around (.tick view frontend meanwhile)).run around between
    reached.engine.running = true → reached.engine.stopRequested = false →
    nextView.closeRequested nextFrontend = false →
    (reached.engine.tick around nextView nextFrontend nextMeanwhile
        reached.world).engine.machine.sends =
      reached.engine.machine.sends + if snapshot.canSend = true then 1 else 0

/-- The presses of a rendering are applied by the next frame, to a machine that
is still as it was rendered. -/
theorem sends_of_rendered {ψ : Type} (inStep : usage.engine.InStep)
    (view : Frontend φ) (frontend : φ) (meanwhile : List σ)
    {snapshot : Snapshot}
    (shown : (usage.engine.tick around view frontend meanwhile
      usage.world).shown = some snapshot)
    (raised : (usage.engine.rendering around view frontend meanwhile
      usage.world).intents ≠ [])
    {reached : Usage ω}
    (between : Between (usage.after around (.tick view frontend meanwhile))
      reached) (later : reached.engine.InStep)
    {nextView : Frontend ψ} {nextFrontend : ψ} (nextMeanwhile : List σ)
    (running : reached.engine.running = true)
    (wanted : reached.engine.stopRequested = false)
    (open' : nextView.closeRequested nextFrontend = false) :
    (reached.engine.tick around nextView nextFrontend nextMeanwhile
        reached.world).engine.machine.sends =
      reached.engine.machine.sends +
        if snapshot.canSend = true then 1 else 0 := by
  rw [later.tick_sends running wanted open']
  cases inStep.ticked around view frontend meanwhile usage.world with
  | idle _ same =>
      rw [same] at shown
      cases shown
  | stopped _ _ halted => cases halted.shown.symm.trans shown
  | closed _ _ _ halted => cases halted.shown.symm.trans shown
  | framed _ _ _ framed =>
      cases framed.shown.symm.trans shown
      have machine := between.machine.trans framed.machine
      have waiting := between.intents
      change (usage.engine.tick around view frontend meanwhile
        usage.world).engine.intents.toList <+: _ at waiting
      rw [framed.intents] at waiting
      have some : reached.engine.intents.isEmpty = false := by
        rw [Queue.isEmpty_eq, List.isEmpty_eq_false_iff]
        intro empty
        rw [empty] at waiting
        exact raised (List.prefix_nil.mp waiting)
      rw [some]
      simp only [Engine.snapshot, machine, and_true]
      rfl

/-- In every state that an engine can reach the next frame sends exactly one
command if the send control is enabled and was pressed, and none otherwise;
the presses of a rendering count by the snapshot that was rendered. -/
theorem reachable_sends_exactly (around : Surroundings ω σ) (config : Config)
    (world : ω) (uses : List (EngineUse σ)) :
    ((start config world).run around uses).SendsExactly around where
  looks := run_looksAsShown around config world uses
  sends view frontend meanwhile running wanted shown :=
    (run_inStep around config world uses).tick_sends running wanted shown
  pressed := by
    intro φ ψ view frontend meanwhile snapshot between nextView nextFrontend
      nextMeanwhile shown raised quiet reached running wanted open'
    have inStep := run_inStep around config world uses
    have next :=
      after_inStep around _ (.tick view frontend meanwhile) inStep
    have later := run_keeps around
      (fun usage => usage.engine.InStep) (after_inStep around) _ next between
    exact sends_of_rendered inStep view frontend meanwhile shown raised
      (between_run _ between quiet) later nextMeanwhile running wanted open'

/-! The control is enabled once the peer is connected.  It is pressed twice
there, by somebody else or by the front-end that is shown the snapshot. -/

def connecting : List (EngineUse WireStep) :=
  [.beside (.peerJoins default),
   .beside (.endpoint .accept),
   .tick Scripted.frontend Scripted.start []]

def connected (uses : List (EngineUse WireStep)) : Usage Wire :=
  (start (.forTransport .rawTcp) (.start .rawTcp)).run Wire.surroundings
    (connecting ++ uses)

def eager : Scripted :=
  Scripted.start.plan
    { count := 2
      whenEnabled := true }

theorem connected_sends_once :
    let pressed := connected [.press [.sendCommand, .sendCommand]]
    let shown := connected [.tick Scripted.frontend eager []]
    pressed.engine.snapshot.canSend = true ∧
    (pressed.engine.tick Wire.surroundings Scripted.frontend Scripted.start []
      pressed.world).engine.machine.sends =
        pressed.engine.machine.sends + 1 ∧
    (shown.engine.tick Wire.surroundings Scripted.frontend Scripted.start []
      shown.world).engine.machine.sends =
        shown.engine.machine.sends + 1 := by
  intro pressed shown
  have exactly := reachable_sends_exactly Wire.surroundings
    (.forTransport .rawTcp) (.start .rawTcp)
  have enabled : pressed.engine.snapshot.canSend = true := by decide
  have filled : pressed.engine.intents.isEmpty = false := by decide
  have byOthers := (exactly _).sends Scripted.frontend Scripted.start []
    (show pressed.engine.running = true by decide) (by decide) rfl
  rw [if_pos ⟨enabled, filled⟩] at byOthers
  have byFrontend := (exactly connecting).pressed Scripted.frontend eager []
    (connected []).engine.snapshot [] Scripted.frontend Scripted.start []
    rfl (by decide) nofun (show shown.engine.running = true by decide)
    (show shown.engine.stopRequested = false by decide) rfl
  exact ⟨enabled, byOthers, byFrontend⟩

end Usage

end LatencyBench

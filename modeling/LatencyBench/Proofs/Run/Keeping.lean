/-
What every step keeps holds at every moment of a run and after it.

A run moves an engine by ticks, which feed the machine with many steps at
once, and its surroundings by steps of their own.  A property of the machine,
the surroundings and the waiting events has to be checked for single steps
only; the induction over steps, ticks and runs is made here once.
-/

import LatencyBench.Proofs.Machine.Measurement
import LatencyBench.Proofs.Run.Moments

namespace LatencyBench

variable {ω σ φ : Type}

/-! ### Properties that are kept -/

def Machine.Step.carried : Machine.Step → List Event
  | .event completed => [completed]
  | _ => []

def Machine.Step.StampedAt (now : Instant) : Machine.Step → Prop
  | .intent _ stamp => stamp = now
  | _ => True

/-- A property of a machine, its surroundings and the events that wait for it
which is kept by everything that can happen, if the surroundings take only
steps that are allowed. -/
structure Surroundings.Keeps (around : Surroundings ω σ)
    (allowed : σ → Prop) (kept : Machine → ω → List Event → Prop) :
    Prop where
  instant : ∀ world call, around.clock (around.call world call).1 =
    around.clock world
  taking : ∀ machine world (step : Machine.Step) events,
    step.StampedAt (around.clock world) →
    kept machine world (step.carried ++ events) →
    kept (machine.after step)
      (around.callAll world (machine.react step).calls).1
      (events ++ (around.callAll world (machine.react step).calls).2)
  beside : ∀ machine world step events, allowed step →
    kept machine world events →
    kept machine (around.step world step).1
      (events ++ (around.step world step).2)
  noticing : ∀ machine world events (engine : Engine),
    engine.machine = machine → engine.cancelled = false →
    engine.ownsRuntime = true → kept machine world events →
    kept machine (around.notice world engine) events
  lettingGo : ∀ machine world events (engine : Engine),
    engine.machine = machine → machine.phase = .terminated →
    engine.cancelled = true → engine.ownsRuntime = false →
    kept machine world events →
    kept machine (around.notice world engine) events

/-- Whether a moment occurs while a property holds, with the event that it
takes at the head of those that wait. -/
def Moment.Occurs (around : Surroundings ω σ)
    (kept : Machine → ω → List Event → Prop) (moment : Moment ω) : Prop :=
  moment.step.StampedAt (around.clock moment.world) ∧
    ∃ events, kept moment.machine moment.world
      (moment.step.carried ++ events)

def RunStep.Allows (allowed : σ → Prop) : RunStep σ → Prop
  | .beside step => allowed step
  | .tick meanwhile => ∀ step ∈ meanwhile, allowed step
  | _ => True

/-! ### Lists of steps -/

namespace Surroundings

variable {around : Surroundings ω σ} {allowed : σ → Prop}
  {kept : Machine → ω → List Event → Prop}

theorem callAll_append (around : Surroundings ω σ) (world : ω)
    (first second : List ConnectionCall) :
    around.callAll world (first ++ second) =
      ((around.callAll (around.callAll world first).1 second).1,
        (around.callAll world first).2 ++
          (around.callAll (around.callAll world first).1 second).2) := by
  induction first generalizing world with
  | nil => rfl
  | cons call rest inductionHypothesis =>
      simp only [List.cons_append, callAll, inductionHypothesis,
        List.append_assoc]

theorem callAll_clock (instant : ∀ world call,
      around.clock (around.call world call).1 = around.clock world)
    (world : ω) (calls : List ConnectionCall) :
    around.clock (around.callAll world calls).1 = around.clock world := by
  induction calls generalizing world with
  | nil => rfl
  | cons call rest inductionHypothesis =>
      simp only [callAll]
      rw [inductionHypothesis, instant]

theorem Keeps.stepAll (keeps : around.Keeps allowed kept)
    {machine : Machine} {world : ω} {events : List Event} (steps : List σ)
    (fine : ∀ step ∈ steps, allowed step)
    (holds : kept machine world events) :
    kept machine (around.stepAll world steps).1
      (events ++ (around.stepAll world steps).2) := by
  induction steps generalizing world events with
  | nil =>
      simp only [Surroundings.stepAll, List.append_nil]
      exact holds
  | cons step rest inductionHypothesis =>
      have next := keeps.beside machine world step events
        (fine step List.mem_cons_self) holds
      have last := inductionHypothesis
        (fun later member => fine later (List.mem_cons_of_mem step member))
        next
      simp only [Surroundings.stepAll]
      rw [← List.append_assoc]
      exact last

theorem Keeps.run (keeps : around.Keeps allowed kept) (machine : Machine)
    (world : ω) (steps : List Machine.Step) (events : List Event)
    (stamped : ∀ step ∈ steps, step.StampedAt (around.clock world))
    (holds : kept machine world
      (steps.flatMap Machine.Step.carried ++ events)) :
    kept (machine.run steps)
        (around.callAll world (machine.callsOf steps)).1
        (events ++ (around.callAll world (machine.callsOf steps)).2) ∧
      ∀ moment ∈ machine.moments around world steps,
        moment.Occurs around kept := by
  induction steps generalizing machine world events with
  | nil =>
      constructor
      · simpa [Machine.callsOf, Machine.reactions, callAll] using holds
      · intro moment member
        cases member
  | cons step rest inductionHypothesis =>
      -- The step takes its own event off the head of the queue; what its
      -- calls bring joins the tail.
      have first := stamped step List.mem_cons_self
      rw [List.flatMap_cons, List.append_assoc] at holds
      have next := keeps.taking machine world step _ first holds
      rw [List.append_assoc] at next
      have later : ∀ step' ∈ rest, step'.StampedAt (around.clock
          (around.callAll world (machine.react step).calls).1) := by
        intro step' member
        rw [callAll_clock keeps.instant]
        exact stamped step' (List.mem_cons_of_mem step member)
      obtain ⟨last, occurs⟩ :=
        inductionHypothesis (machine.after step) _ _ later next
      constructor
      · rw [Machine.callsOf_cons, callAll_append, Machine.run_cons, ← List.append_assoc]
        exact last
      · intro moment member
        rw [Machine.moments, List.mem_cons] at member
        rcases member with here | afterwards
        · rw [here]
          exact ⟨first, _, holds⟩
        · exact occurs moment afterwards

end Surroundings

/-! ### Ticks -/

/-- Whether a property holds of an engine in its surroundings, with the events
that wait; the engine gives up its runtime exactly when it stops. -/
structure Engine.Sound (kept : Machine → ω → List Event → Prop)
    (engine : Engine) (world : ω) : Prop where
  holds : kept engine.machine world engine.events.toList
  cancelled : engine.cancelled = !engine.running
  runtime : engine.ownsRuntime = engine.running

namespace Engine

variable {around : Surroundings ω σ} {allowed : σ → Prop}
  {kept : Machine → ω → List Event → Prop}

theorem feed_keeps (keeps : around.Keeps allowed kept) (driven : Driven ω)
    (steps : List Machine.Step)
    (stamped : ∀ step ∈ steps, step.StampedAt (around.clock driven.world))
    (sound : driven.engine.Sound
      (fun machine world events =>
        kept machine world (steps.flatMap Machine.Step.carried ++ events))
      driven.world)
    (running : driven.engine.running = true) :
    (feed around driven steps).engine.Sound kept
        (feed around driven steps).world ∧
      ∀ moment ∈ driven.moments around steps,
        moment.Occurs around kept := by
  obtain ⟨last, occurs⟩ := keeps.run driven.engine.machine driven.world
    steps driven.engine.events.toList stamped sound.holds
  have cancelled : driven.engine.cancelled = false := by
    rw [sound.cancelled, running]
    rfl
  have runtime : driven.engine.ownsRuntime = true := by
    rw [sound.runtime, running]
  refine ⟨?_, occurs⟩
  refine
    { holds := ?_
      cancelled := sound.cancelled
      runtime := sound.runtime }
  rw [← Queue.toList_pushAll] at last
  exact keeps.noticing _ _ _ _ rfl cancelled runtime last

theorem intentSteps_carried (around : Surroundings ω σ)
    (driven : Driven ω) :
    (intentSteps around driven).flatMap Machine.Step.carried = [] := by
  apply List.flatMap_eq_nil_iff.mpr
  intro step member
  obtain ⟨intent, _, same⟩ := List.mem_map.mp member
  rw [← same]
  rfl

theorem eventSteps_carried (driven : Driven ω) :
    (eventSteps driven).flatMap Machine.Step.carried =
      driven.engine.events.toList := by
  unfold eventSteps
  rw [List.flatMap_map]
  exact List.flatMap_singleton' _

theorem takeIntents_keeps (keeps : around.Keeps allowed kept)
    (driven : Driven ω) (sound : driven.engine.Sound kept driven.world)
    (running : driven.engine.running = true) :
    (takeIntents around driven).engine.Sound kept
        (takeIntents around driven).world ∧
      ∀ moment ∈ driven.moments around (intentSteps around driven),
        moment.Occurs around kept := by
  have stamped : ∀ step ∈ intentSteps around driven,
      step.StampedAt (around.clock driven.world) := by
    intro step member
    obtain ⟨intent, _, same⟩ := List.mem_map.mp member
    rw [← same]
    rfl
  apply feed_keeps keeps
    { driven with engine := { driven.engine with intents := .empty } }
    (intentSteps around driven) stamped _ running
  rw [intentSteps_carried]
  exact
    { holds := sound.holds
      cancelled := sound.cancelled
      runtime := sound.runtime }

theorem takeEvents_keeps (keeps : around.Keeps allowed kept)
    (driven : Driven ω) (sound : driven.engine.Sound kept driven.world)
    (running : driven.engine.running = true) :
    (takeEvents around driven).engine.Sound kept
        (takeEvents around driven).world ∧
      ∀ moment ∈ driven.moments around (eventSteps driven),
        moment.Occurs around kept := by
  have stamped : ∀ step ∈ eventSteps driven,
      step.StampedAt (around.clock driven.world) := by
    intro step member
    obtain ⟨event, _, same⟩ := List.mem_map.mp member
    rw [← same]
    trivial
  apply feed_keeps keeps
    { driven with engine := { driven.engine with events := .empty } }
    (eventSteps driven) stamped _ running
  rw [eventSteps_carried]
  refine
    { holds := ?_
      cancelled := sound.cancelled
      runtime := sound.runtime }
  rw [Queue.toList_empty, List.append_nil]
  exact sound.holds

theorem goOn_keeps (keeps : around.Keeps allowed kept) (driven : Driven ω)
    (steps : List σ) (fine : ∀ step ∈ steps, allowed step)
    (sound : driven.engine.Sound kept driven.world) :
    (goOn around driven steps).engine.Sound kept
      (goOn around driven steps).world where
  holds := by
    have next := keeps.stepAll steps fine sound.holds
    rw [← Queue.toList_pushAll] at next
    exact next
  cancelled := sound.cancelled
  runtime := sound.runtime

theorem teardown_keeps (keeps : around.Keeps allowed kept)
    (reason : Termination) (driven : Driven ω)
    (sound : driven.engine.Sound kept driven.world)
    (running : driven.engine.running = true) :
    (teardown around reason driven).engine.Sound kept
        (teardown around reason driven).world ∧
      ∀ moment ∈ driven.moments around [.shutdown reason],
        moment.Occurs around kept := by
  obtain ⟨ended, occurs⟩ := feed_keeps keeps driven [.shutdown reason]
    (fun step member => by rw [List.mem_singleton.mp member]; trivial)
    sound running
  refine ⟨?_, occurs⟩
  exact
    { holds := keeps.lettingGo _ _ _ _ rfl
        (driven.engine.machine.shutdown_terminates reason) rfl rfl
        ended.holds
      cancelled := rfl
      runtime := rfl }

theorem frame_keeps (keeps : around.Keeps allowed kept) (view : Frontend φ)
    (frontend : φ) (meanwhile : List σ)
    (fine : ∀ step ∈ meanwhile, allowed step) (driven : Driven ω)
    (sound : driven.engine.Sound kept driven.world)
    (running : driven.engine.running = true) :
    (frame around view frontend meanwhile driven).engine.Sound kept
        (frame around view frontend meanwhile driven).world ∧
      ∀ moment ∈ frameMoments around meanwhile driven,
        moment.Occurs around kept := by
  obtain ⟨pressed, early⟩ := takeIntents_keeps keeps driven sound running
  have between := goOn_keeps keeps _ meanwhile fine pressed
  obtain ⟨applied, late⟩ := takeEvents_keeps keeps _ between running
  have going : (takeEvents around (goOn around (takeIntents around driven)
      meanwhile)).engine.running = true := running
  unfold frame frameMoments closingMoments
  dsimp only
  generalize goOn around (takeIntents around driven) meanwhile = ready
    at applied late going ⊢
  generalize takeEvents around ready = taken at applied going ⊢
  generalize view.render frontend taken.engine.snapshot
    (around.clock taken.world) = rendering
  have counted (log : List LogRecord) :
      Sound kept
        (Driven.engine
          { taken with
            engine :=
              { taken.engine.press rendering.intents with
                frames := taken.engine.frames + 1 }
            log := log }) taken.world :=
    { holds := applied.holds
      cancelled := applied.cancelled
      runtime := applied.runtime }
  have both (moment : Moment ω)
      (member : moment ∈ driven.moments around (intentSteps around driven) ++
        ready.moments around (eventSteps ready)) :
      moment.Occurs around kept := by
    rcases List.mem_append.mp member with first | second
    · exact early moment first
    · exact late moment second
  cases finished : taken.engine.machine.termination with
  | none =>
      simp only [press, finished, List.append_nil]
      exact ⟨counted [], both⟩
  | some reason =>
      simp only [press, finished]
      obtain ⟨ended, last⟩ := teardown_keeps keeps reason
        (Driven.mk _ taken.world (taken.log ++ rendering.log))
        (counted (taken.log ++ rendering.log)) going
      refine ⟨ended, ?_⟩
      intro moment member
      rcases List.mem_append.mp member with before | third
      · exact both moment before
      · exact last moment third

theorem tick_keeps (keeps : around.Keeps allowed kept) (view : Frontend φ)
    (frontend : φ) (meanwhile : List σ)
    (fine : ∀ step ∈ meanwhile, allowed step) (engine : Engine) (world : ω)
    (sound : engine.Sound kept world) :
    (engine.tick around view frontend meanwhile world).engine.Sound kept
        (engine.tick around view frontend meanwhile world).world ∧
      ∀ moment ∈ engine.tickMoments around view frontend meanwhile world,
        moment.Occurs around kept := by
  unfold tick tickMoments
  cases running : engine.running with
  | false =>
      refine ⟨sound, ?_⟩
      intro moment member
      cases member
  | true =>
      cases stopping : engine.stopRequested with
      | true => exact teardown_keeps keeps .stopped _ sound running
      | false =>
          cases closing : view.closeRequested frontend with
          | true => exact teardown_keeps keeps .windowClosed _ sound running
          | false =>
              exact frame_keeps keeps view frontend meanwhile fine _ sound
                running

theorem release_keeps (keeps : around.Keeps allowed kept) (engine : Engine)
    (world : ω) (sound : engine.Sound kept world) :
    (engine.release around world).engine.Sound kept
        (engine.release around world).world ∧
      ∀ moment ∈ engine.releaseMoments around world,
        moment.Occurs around kept := by
  unfold release releaseMoments
  cases running : engine.running with
  | false =>
      refine ⟨sound, ?_⟩
      intro moment member
      cases member
  | true => exact teardown_keeps keeps .stopped _ sound running

end Engine

/-! ### Runs -/

namespace Run

variable {around : Surroundings ω σ} {allowed : σ → Prop}
  {kept : Machine → ω → List Event → Prop}

theorem step_keeps (keeps : around.Keeps allowed kept) (view : Frontend φ)
    (run : Run ω φ) (step : RunStep σ) (fine : step.Allows allowed)
    (sound : run.engine.Sound kept run.world) :
    (run.step around view step).engine.Sound kept
        (run.step around view step).world ∧
      ∀ moment ∈ run.stepMoments around view step,
        moment.Occurs around kept := by
  cases step with
  | press intents =>
      refine ⟨?_, fun moment member => by cases member⟩
      exact
        { holds := sound.holds
          cancelled := sound.cancelled
          runtime := sound.runtime }
  | beside step =>
      refine ⟨?_, fun moment member => by cases member⟩
      have next := keeps.beside _ _ step _ fine sound.holds
      rw [← Queue.toList_pushAll] at next
      exact
        { holds := next
          cancelled := sound.cancelled
          runtime := sound.runtime }
  | requestStop =>
      refine ⟨?_, fun moment member => by cases member⟩
      exact
        { holds := sound.holds
          cancelled := sound.cancelled
          runtime := sound.runtime }
  | tick meanwhile =>
      exact Engine.tick_keeps keeps view run.frontend meanwhile fine
        run.engine run.world sound
  | release => exact Engine.release_keeps keeps run.engine run.world sound

theorem amid_keeps (keeps : around.Keeps allowed kept) (run : Run ω φ)
    (meanwhile : List σ) (fine : ∀ step ∈ meanwhile, allowed step)
    (sound : run.engine.Sound kept run.world)
    (running : run.engine.running = true) :
    (run.amid around meanwhile).engine.Sound kept
      (run.amid around meanwhile).world := by
  have pressed := (Engine.takeIntents_keeps keeps
    { engine := run.engine
      world := run.world } sound running).1
  exact Engine.goOn_keeps keeps _ meanwhile fine pressed

/-- The run lemma: what is kept holds after every run, and at each of its
moments. -/
theorem steps_keep (keeps : around.Keeps allowed kept) (view : Frontend φ)
    (run : Run ω φ) (all : List (RunStep σ))
    (fine : ∀ step ∈ all, step.Allows allowed)
    (sound : run.engine.Sound kept run.world) :
    (run.steps around view all).engine.Sound kept
        (run.steps around view all).world ∧
      ∀ moment ∈ run.moments around view all,
        moment.Occurs around kept := by
  induction all generalizing run with
  | nil =>
      refine ⟨sound, ?_⟩
      intro moment member
      cases member
  | cons step rest inductionHypothesis =>
      obtain ⟨next, here⟩ := step_keeps keeps view run step
        (fine step List.mem_cons_self) sound
      obtain ⟨last, later⟩ := inductionHypothesis (run.step around view step)
        (fun other member => fine other (List.mem_cons_of_mem step member))
        next
      refine ⟨last, ?_⟩
      intro moment member
      rcases List.mem_append.mp member with first | second
      · exact here moment first
      · exact later moment second

end Run

end LatencyBench

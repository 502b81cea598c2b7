/-
The event queue of a run read as history.

What the machine has taken off the queue so far, followed by what still waits,
is everything that was ever queued, in order.  Whatever the surroundings
remember of the events they have completed therefore holds of that list.
-/

import LatencyBench.Proofs.Run.Keeping

namespace LatencyBench

variable {ω σ φ : Type}

def eventsTaken (moments : List (Moment ω)) : List Event :=
  moments.flatMap fun moment => moment.step.carried

theorem eventsTaken_nil : eventsTaken ([] : List (Moment ω)) = [] := rfl

theorem eventsTaken_cons (moment : Moment ω) (rest : List (Moment ω)) :
    eventsTaken (moment :: rest) =
      moment.step.carried ++ eventsTaken rest := rfl

theorem eventsTaken_append (earlier later : List (Moment ω)) :
    eventsTaken (earlier ++ later) =
      eventsTaken earlier ++ eventsTaken later :=
  List.flatMap_append

theorem Machine.moments_taken (around : Surroundings ω σ)
    (machine : Machine) (world : ω) (steps : List Machine.Step) :
    eventsTaken (machine.moments around world steps) =
      steps.flatMap Machine.Step.carried := by
  induction steps generalizing machine world with
  | nil => rfl
  | cons step rest inductionHypothesis =>
      have later := inductionHypothesis (machine.after step)
        (around.callAll world (machine.react step).calls).1
      rw [Machine.moments, eventsTaken_cons, later, List.flatMap_cons]

theorem Engine.intentMoments_taken (around : Surroundings ω σ)
    (driven : Driven ω) :
    eventsTaken (driven.moments around (intentSteps around driven)) = [] := by
  rw [Driven.moments, Machine.moments_taken, intentSteps_carried]

theorem Engine.eventMoments_taken (around : Surroundings ω σ)
    (driven : Driven ω) :
    eventsTaken (driven.moments around (eventSteps driven)) =
      driven.engine.events.toList := by
  rw [Driven.moments, Machine.moments_taken, eventSteps_carried]

/-- Everything that was ever queued in a run, in order. -/
def Run.queued (around : Surroundings ω σ) (view : Frontend φ)
    (run : Run ω φ) (all : List (RunStep σ)) : List Event :=
  eventsTaken (run.moments around view all) ++
    (run.steps around view all).engine.events.toList

/-- Surroundings that remember, by what they have become, what they have
completed. -/
structure Surroundings.Remembers (around : Surroundings ω σ)
    (past : ω → List Event → Prop) : Prop where
  call : ∀ world made events, past world events →
    past (around.call world made).1 (events ++ (around.call world made).2)
  step : ∀ world step events, past world events →
    past (around.step world step).1 (events ++ (around.step world step).2)
  notice : ∀ world engine events, past world events →
    past (around.notice world engine) events

section Remembering

variable {around : Surroundings ω σ} {past : ω → List Event → Prop}
  (remembers : around.Remembers past)

include remembers

theorem Surroundings.Remembers.callAll {world : ω} {events : List Event}
    (calls : List ConnectionCall) (holds : past world events) :
    past (around.callAll world calls).1
      (events ++ (around.callAll world calls).2) := by
  induction calls generalizing world events with
  | nil =>
      simp only [Surroundings.callAll, List.append_nil]
      exact holds
  | cons made rest inductionHypothesis =>
      have last := inductionHypothesis (remembers.call world made _ holds)
      rw [List.append_assoc] at last
      exact last

theorem Surroundings.Remembers.stepAll {world : ω} {events : List Event}
    (steps : List σ) (holds : past world events) :
    past (around.stepAll world steps).1
      (events ++ (around.stepAll world steps).2) := by
  induction steps generalizing world events with
  | nil =>
      simp only [Surroundings.stepAll, List.append_nil]
      exact holds
  | cons step rest inductionHypothesis =>
      have last := inductionHypothesis (remembers.step world step _ holds)
      rw [List.append_assoc] at last
      exact last

namespace Engine

variable {taken : List Event}

/-- What is completed by the calls joins the end of the queue. -/
theorem feed_remembers (driven : Driven ω) (steps : List Machine.Step)
    (holds : past driven.world (taken ++ driven.engine.events.toList)) :
    past (feed around driven steps).world
      (taken ++ (feed around driven steps).engine.events.toList) := by
  have called := remembers.callAll (driven.engine.machine.callsOf steps) holds
  apply remembers.notice
  change past _ (taken ++ (driven.engine.events.pushAll _).toList)
  rw [Queue.toList_pushAll, ← List.append_assoc]
  exact called

theorem goOn_remembers (driven : Driven ω) (steps : List σ)
    (holds : past driven.world (taken ++ driven.engine.events.toList)) :
    past (goOn around driven steps).world
      (taken ++ (goOn around driven steps).engine.events.toList) := by
  have gone := remembers.stepAll steps holds
  change past _ (taken ++ (driven.engine.events.pushAll _).toList)
  rw [Queue.toList_pushAll, ← List.append_assoc]
  exact gone

theorem takeEvents_remembers (driven : Driven ω)
    (holds : past driven.world (taken ++ driven.engine.events.toList)) :
    past (takeEvents around driven).world
      ((taken ++ driven.engine.events.toList) ++
        (takeEvents around driven).engine.events.toList) := by
  apply feed_remembers remembers
    { driven with engine := { driven.engine with events := .empty } }
    (eventSteps driven)
  rw [Queue.toList_empty, List.append_nil]
  exact holds

theorem teardown_remembers (reason : Termination) (driven : Driven ω)
    (holds : past driven.world (taken ++ driven.engine.events.toList)) :
    past (teardown around reason driven).world
      (taken ++ eventsTaken (driven.moments around [.shutdown reason]) ++
        (teardown around reason driven).engine.events.toList) := by
  have ended := feed_remembers remembers driven [.shutdown reason] holds
  have nothing :
      eventsTaken (driven.moments around [.shutdown reason]) = [] := rfl
  rw [nothing, List.append_nil]
  exact remembers.notice _ _ _ ended

theorem frame_remembers (view : Frontend φ) (frontend : φ)
    (meanwhile : List σ) (driven : Driven ω)
    (holds : past driven.world (taken ++ driven.engine.events.toList)) :
    past (frame around view frontend meanwhile driven).world
      (taken ++ eventsTaken (frameMoments around meanwhile driven) ++
        (frame around view frontend meanwhile driven).engine.events.toList) := by
  have pressed : past (takeIntents around driven).world
      (taken ++ (takeIntents around driven).engine.events.toList) :=
    feed_remembers remembers
      { driven with engine := { driven.engine with intents := .empty } }
      (intentSteps around driven) holds
  have ready := goOn_remembers remembers _ meanwhile pressed
  have applied := takeEvents_remembers remembers _ ready
  unfold frame frameMoments closingMoments
  simp only [eventsTaken_append, intentMoments_taken, eventMoments_taken,
    List.nil_append, ← List.append_assoc]
  generalize goOn around (takeIntents around driven) meanwhile = between
    at applied ⊢
  generalize takeEvents around between = last at applied ⊢
  cases finished : last.engine.machine.termination with
  | none =>
      simp only [press, finished, eventsTaken_nil, List.append_nil]
      exact applied
  | some reason =>
      simp only [press, finished]
      exact teardown_remembers remembers reason _ applied

theorem tick_remembers (view : Frontend φ) (frontend : φ)
    (meanwhile : List σ) (engine : Engine) (world : ω)
    (holds : past world (taken ++ engine.events.toList)) :
    past (engine.tick around view frontend meanwhile world).world
      (taken ++
        eventsTaken
          (engine.tickMoments around view frontend meanwhile world) ++
        (engine.tick around view frontend meanwhile
          world).engine.events.toList) := by
  unfold tick tickMoments
  cases running : engine.running with
  | false =>
      rw [Bool.not_false, if_pos rfl, if_pos rfl, eventsTaken_nil,
        List.append_nil]
      exact holds
  | true =>
      cases stopping : engine.stopRequested with
      | true => exact teardown_remembers remembers .stopped _ holds
      | false =>
          cases closing : view.closeRequested frontend with
          | true => exact teardown_remembers remembers .windowClosed _ holds
          | false =>
              exact frame_remembers remembers view frontend meanwhile _ holds

theorem release_remembers (engine : Engine) (world : ω)
    (holds : past world (taken ++ engine.events.toList)) :
    past (engine.release around world).world
      (taken ++ eventsTaken (engine.releaseMoments around world) ++
        (engine.release around world).engine.events.toList) := by
  unfold release releaseMoments
  cases running : engine.running with
  | false =>
      rw [if_neg Bool.false_ne_true, if_neg Bool.false_ne_true,
        eventsTaken_nil, List.append_nil]
      exact holds
  | true => exact teardown_remembers remembers .stopped _ holds

end Engine

namespace Run

theorem step_remembers (view : Frontend φ) (run : Run ω φ)
    (step : RunStep σ) {taken : List Event}
    (holds : past run.world (taken ++ run.engine.events.toList)) :
    past (run.step around view step).world
      (taken ++ eventsTaken (run.stepMoments around view step) ++
        (run.step around view step).engine.events.toList) := by
  cases step with
  | press intents =>
      rw [stepMoments, eventsTaken_nil, List.append_nil]
      · exact holds
      · simp
      · simp
  | requestStop =>
      rw [stepMoments, eventsTaken_nil, List.append_nil]
      · exact holds
      · simp
      · simp
  | beside step =>
      have gone := remembers.step _ step _ holds
      simpa [stepMoments, eventsTaken, Run.step, Engine.complete] using gone
  | tick meanwhile =>
      exact Engine.tick_remembers remembers view run.frontend meanwhile
        run.engine run.world holds
  | release =>
      exact Engine.release_remembers remembers run.engine run.world holds

theorem steps_remember (view : Frontend φ) (run : Run ω φ)
    (all : List (RunStep σ)) (taken : List Event)
    (holds : past run.world (taken ++ run.engine.events.toList)) :
    past (run.steps around view all).world
      (taken ++ run.queued around view all) := by
  induction all generalizing run taken with
  | nil => exact holds
  | cons step rest inductionHypothesis =>
      have last := inductionHypothesis (run.step around view step) _
        (step_remembers remembers view run step holds)
      simp only [queued, moments, eventsTaken_append, List.append_assoc]
        at last ⊢
      exact last

end Run

end Remembering

end LatencyBench

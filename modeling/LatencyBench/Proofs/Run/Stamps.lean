/-
Stamps: no stamp of a session lies in the future, and between two ticks no
waiting message is older than a command that is outstanding.

The first is kept by every single step.  The second is not, since a press is
applied before the messages that wait already; it is restored by the end of
the tick, which takes them all.
-/

import LatencyBench.Proofs.Machine.Measurement
import LatencyBench.Proofs.Run.Keeping
import LatencyBench.Proofs.Wire.Clock

namespace LatencyBench

variable {ω σ φ : Type}

/-- Whether no stamp lies in the future. -/
structure Timely (around : Surroundings ω σ) (machine : Machine) (world : ω)
    (events : List Event) : Prop where
  consistent : machine.Consistent
  issued : ∀ issuedAt, machine.measurement.issuedAt = some issuedAt →
    issuedAt ≤ around.clock world
  received : ∀ payload receivedAt,
    Event.received payload receivedAt ∈ events →
    receivedAt ≤ around.clock world

/-- Whether no waiting message is older than the outstanding command. -/
def Settled (machine : Machine) (events : List Event) : Prop :=
  machine.measurement.pending = true →
    ∀ issuedAt, machine.measurement.issuedAt = some issuedAt →
      ∀ payload receivedAt, Event.received payload receivedAt ∈ events →
        issuedAt ≤ receivedAt

theorem Timely.atClock {around : Surroundings ω σ} {machine : Machine}
    {world next : ω} {events : List Event}
    (timely : Timely around machine world events)
    (same : around.clock next = around.clock world) :
    Timely around machine next events where
  consistent := timely.consistent
  issued := by
    rw [same]
    exact timely.issued
  received := by
    rw [same]
    exact timely.received

section Punctual

variable {around : Surroundings ω σ}

theorem Surroundings.Punctual.callAll_quiet (punctual : around.Punctual)
    (world : ω) (calls : List ConnectionCall) (payload : Payload)
    (receivedAt : Instant) :
    Event.received payload receivedAt ∉
      (around.callAll world calls).2 := by
  induction calls generalizing world with
  | nil => exact List.not_mem_nil
  | cons call rest inductionHypothesis =>
      intro member
      rcases List.mem_append.mp member with first | later
      · exact punctual.call_quiet world call payload receivedAt first
      · exact inductionHypothesis _ later

theorem Surroundings.Punctual.stepAll_stamp (punctual : around.Punctual)
    (world : ω) (steps : List σ) (payload : Payload) (receivedAt : Instant)
    (member : Event.received payload receivedAt ∈
      (around.stepAll world steps).2) :
    around.clock world ≤ receivedAt := by
  induction steps generalizing world with
  | nil => cases member
  | cons step rest inductionHypothesis =>
      rcases List.mem_append.mp member with first | later
      · exact (punctual.step_stamp world step payload receivedAt first).1
      · exact Nat.le_trans (punctual.step_clock world step)
          (inductionHypothesis (around.step world step).1 later)

theorem timely_keeps (punctual : around.Punctual) :
    around.Keeps (fun _ => True) (Timely around) where
  instant := punctual.call_clock
  taking machine world step events stamped timely := by
    have clock := Surroundings.callAll_clock punctual.call_clock world
      (machine.react step).calls
    refine
      { consistent :=
          Machine.after_consistent machine step timely.consistent
        issued := ?_
        received := ?_ }
    · intro issuedAt stamp
      rw [clock]
      rcases machine.after_issuedAt step with same | ⟨_, now, press, fresh⟩
      · rw [same] at stamp
        exact timely.issued issuedAt stamp
      · rw [press] at stamped
        rw [fresh] at stamp
        cases stamp
        exact Nat.le_of_eq stamped
    · intro payload receivedAt member
      rw [clock]
      rcases List.mem_append.mp member with waiting | made
      · exact timely.received payload receivedAt
          (List.mem_append_right _ waiting)
      · exact absurd made
          (punctual.callAll_quiet world _ payload receivedAt)
  beside machine world step events _ timely := by
    have clock := punctual.step_clock world step
    refine
      { consistent := timely.consistent
        issued := ?_
        received := ?_ }
    · intro issuedAt stamp
      exact Nat.le_trans (timely.issued issuedAt stamp) clock
    · intro payload receivedAt member
      rcases List.mem_append.mp member with waiting | came
      · exact Nat.le_trans (timely.received payload receivedAt waiting) clock
      · exact (punctual.step_stamp world step payload receivedAt came).2
  noticing _ world _ engine _ _ _ timely :=
    timely.atClock (punctual.notice_clock world engine)
  lettingGo _ world _ engine _ _ _ _ timely :=
    timely.atClock (punctual.notice_clock world engine)

/-! ### Ticks -/

theorem Engine.feed_received (punctual : around.Punctual) (driven : Driven ω)
    (steps : List Machine.Step) {payload : Payload} {receivedAt : Instant}
    (member : Event.received payload receivedAt ∈
      (feed around driven steps).engine.events.toList) :
    Event.received payload receivedAt ∈ driven.engine.events.toList := by
  change _ ∈ (driven.engine.events.pushAll _).toList at member
  rw [Queue.toList_pushAll] at member
  rcases List.mem_append.mp member with waiting | made
  · exact waiting
  · exact absurd made (punctual.callAll_quiet _ _ payload receivedAt)

theorem Engine.teardown_settled (reason : Termination) (driven : Driven ω)
    (consistent : driven.engine.machine.Consistent) :
    Settled (teardown around reason driven).engine.machine
      (teardown around reason driven).engine.events.toList := by
  intro pending
  have finished := driven.engine.machine.shutdown_terminates reason
  have after := driven.engine.machine.after_consistent (.shutdown reason)
    consistent
  rw [teardown_machine, Machine.run_cons, Machine.run_nil,
    after.idle_of_terminated finished] at pending
  cases pending

theorem Engine.frame_settled (punctual : around.Punctual)
    (view : Frontend φ) (frontend : φ) (meanwhile : List σ)
    (driven : Driven ω) :
    Settled
      (frame around view frontend meanwhile driven).engine.machine
      (frame around view frontend meanwhile driven).engine.events.toList := by
  have empty (payload : Payload) (receivedAt : Instant) :
      Event.received payload receivedAt ∉
        (takeEvents around (goOn around (takeIntents around driven)
          meanwhile)).engine.events.toList := by
    intro member
    have waiting : Event.received payload receivedAt ∈
        (Queue.empty : Queue Event).toList :=
      feed_received punctual _ _ member
    rw [Queue.toList_empty] at waiting
    cases waiting
  unfold frame
  dsimp only
  generalize takeEvents around (goOn around (takeIntents around driven)
    meanwhile) = taken at empty ⊢
  cases finished : taken.engine.machine.termination with
  | none =>
      simp only [press, finished]
      intro _ _ _ payload receivedAt member
      exact absurd member (empty payload receivedAt)
  | some reason =>
      simp only [press, finished]
      intro _ _ _ payload receivedAt member
      exact absurd (feed_received punctual _ [.shutdown reason] member)
        (empty payload receivedAt)

theorem Engine.tick_settled (punctual : around.Punctual) (view : Frontend φ)
    (frontend : φ) (meanwhile : List σ) (engine : Engine) (world : ω)
    (consistent : engine.machine.Consistent)
    (settled : Settled engine.machine engine.events.toList) :
    Settled
      (engine.tick around view frontend meanwhile world).engine.machine
      (engine.tick around view frontend meanwhile world).engine.events.toList
      := by
  unfold tick
  cases running : engine.running with
  | false => exact settled
  | true =>
      cases stopping : engine.stopRequested with
      | true => exact teardown_settled .stopped _ consistent
      | false =>
          cases closing : view.closeRequested frontend with
          | true => exact teardown_settled .windowClosed _ consistent
          | false => exact frame_settled punctual view frontend meanwhile _

end Punctual

/-! ### Runs -/

namespace Run

variable {around : Surroundings ω σ}

/-- Whether no stamp of a run lies in the future, and no waiting message is
older than the outstanding command. -/
structure Punctual (around : Surroundings ω σ) (run : Run ω φ) : Prop where
  sound : run.engine.Sound (Timely around) run.world
  settled : Settled run.engine.machine run.engine.events.toList

theorem step_punctual (punctual : around.Punctual) (view : Frontend φ)
    (run : Run ω φ) (step : RunStep σ) (holds : run.Punctual around) :
    (run.step around view step).Punctual around where
  sound := (step_keeps (timely_keeps punctual) view run step
    (by cases step <;> simp [RunStep.Allows]) holds.sound).1
  settled := by
    have timely := holds.sound.holds
    cases step with
    | press intents => exact holds.settled
    | requestStop => exact holds.settled
    | beside step =>
        intro pending issuedAt stamp payload receivedAt member
        change _ ∈ (run.engine.events.pushAll _).toList at member
        rw [Queue.toList_pushAll] at member
        rcases List.mem_append.mp member with waiting | came
        · exact holds.settled pending issuedAt stamp payload receivedAt
            waiting
        · exact Nat.le_trans (timely.issued issuedAt stamp)
            (punctual.step_stamp run.world step payload receivedAt came).1
    | tick meanwhile =>
        exact Engine.tick_settled punctual view run.frontend meanwhile
          run.engine run.world timely.consistent holds.settled
    | release =>
        change Settled (run.engine.release around run.world).engine.machine
          (run.engine.release around run.world).engine.events.toList
        unfold Engine.release
        cases running : run.engine.running with
        | false => exact holds.settled
        | true => exact Engine.teardown_settled .stopped _ timely.consistent

end Run

end LatencyBench

/-
The clock of a wire: it never goes back, calls take no time, and a message is
stamped with the moment at which it is received.
-/

import LatencyBench.Proofs.Machine.Measurement
import LatencyBench.Proofs.Wire.Accepting
import LatencyBench.Wire

namespace LatencyBench

variable {ω σ : Type}

/-- Surroundings whose clock does not go back, whose calls bring no message,
and whose messages are stamped while the step that brings them is taken. -/
structure Surroundings.Punctual (around : Surroundings ω σ) : Prop where
  call_clock : ∀ world call,
    around.clock (around.call world call).1 = around.clock world
  call_quiet : ∀ world call payload receivedAt,
    Event.received payload receivedAt ∉ (around.call world call).2
  step_clock : ∀ world step,
    around.clock world ≤ around.clock (around.step world step).1
  step_stamp : ∀ world step payload receivedAt,
    Event.received payload receivedAt ∈ (around.step world step).2 →
    around.clock world ≤ receivedAt ∧
      receivedAt ≤ around.clock (around.step world step).1
  notice_clock : ∀ world engine,
    around.clock (around.notice world engine) = around.clock world

/-- Whether all messages among some events arrived at one moment. -/
def ArrivedAt (now : Instant) (events : List Event) : Prop :=
  ∀ payload receivedAt, Event.received payload receivedAt ∈ events →
    receivedAt = now

theorem arrivedAt_of_connection {now : Instant} {events : List Event}
    (reported : ∀ event ∈ events, event.OfConnection now) :
    ArrivedAt now events := by
  intro payload receivedAt member
  cases reported _ member
  rfl

theorem Endpoint.Met.arrivedAt {now : Instant} {before after : Endpoint}
    {events : List Event} (met : Met now before after events) :
    ArrivedAt now events := by
  cases met with
  | goesOn _ _ _ quiet _ => exact arrivedAt_of_connection quiet
  | connects _ _ _ =>
      intro payload receivedAt member
      cases List.mem_singleton.mp member
  | refuses event refusal _ _ _ _ =>
      intro payload receivedAt member
      rw [← List.mem_singleton.mp member] at refusal
      cases refusal

/-! ### Wires -/

namespace Wire

theorem between_now (wire : Wire)
    (change : Peer → Net.Socket → Peer × Net.Socket) :
    (wire.between change).now = wire.now := by
  unfold between
  split <;> rfl

theorem step_clock (wire : Wire) (step : WireStep) :
    wire.now ≤ (wire.step step).1.now := by
  cases step with
  | pass span => exact Nat.le_add_right wire.now span
  | endpoint _ => exact Nat.le_refl wire.now
  | peerJoins choices =>
      change wire.now ≤ (wire.peerJoins choices).now
      unfold peerJoins
      split <;> exact Nat.le_refl wire.now
  | peerReads most =>
      exact Nat.le_of_eq (wire.between_now _).symm
  | peerReaches most =>
      exact Nat.le_of_eq (wire.between_now _).symm
  | peerMeetsEnd =>
      change wire.now ≤ wire.peerMeetsEnd.now
      unfold peerMeetsEnd
      split
      · exact Nat.le_of_eq (wire.between_now _).symm
      · exact Nat.le_refl wire.now
  | peerLeaves =>
      exact Nat.le_of_eq (wire.between_now _).symm

theorem step_stamp (wire : Wire) (step : WireStep) (payload : Payload)
    (receivedAt : Instant)
    (member : Event.received payload receivedAt ∈ (wire.step step).2) :
    wire.now ≤ receivedAt ∧ receivedAt ≤ (wire.step step).1.now := by
  cases step with
  | endpoint step =>
      have same := (wire.endpoint.turn_met wire.now step).arrivedAt payload
        receivedAt member
      rw [same]
      exact ⟨Nat.le_refl wire.now, Nat.le_refl wire.now⟩
  | pass _ => cases member
  | peerJoins _ => cases member
  | peerReads _ => cases member
  | peerReaches _ => cases member
  | peerMeetsEnd => cases member
  | peerLeaves => cases member

theorem surroundings_punctual : surroundings.Punctual where
  call_clock _ _ := rfl
  call_quiet wire made payload receivedAt member := by
    -- A message would have arrived at every moment at once.
    have always (now : Instant) : receivedAt = now :=
      (wire.endpoint.perform_met made).arrivedAt payload receivedAt member
    exact absurd ((always 0).symm.trans (always 1)) (by decide)
  step_clock := step_clock
  step_stamp := step_stamp
  notice_clock _ _ := rfl

end Wire

end LatencyBench

/-
The fields of a machine agree with its phase.

Eight fields are changed piecemeal by the transitions.  They are only jointly
preserved: that a measurement is outstanding, for instance, is known from the
phase, and that its start is known follows from its being outstanding.
-/

import LatencyBench.Proofs.Machine.Transition

namespace LatencyBench.Machine

structure Consistent (machine : Machine) : Prop where
  held : machine.connection.isSome = true ↔
    machine.phase = .connected ∨ machine.phase = .sending ∨
      machine.phase = .awaitingAck
  outstanding : machine.measurement.pending = true ↔
    machine.phase = .sending ∨ machine.phase = .awaitingAck
  stamped : machine.measurement.pending = true →
    machine.measurement.issuedAt.isSome = true
  reported : machine.termination.isSome = true ↔
    machine.phase = .terminated
  listener : machine.listening = true → machine.phase = .awaitingConnection
  fresh : machine.phase = .awaitingConnection →
    machine.sends = 0 ∧ machine.stats.samples = 0 ∧
      machine.measurement.issuedAt = none

/-- The exits that a machine provides for states which contradict themselves:
nothing to send on though a peer is connected, no start of a measurement that
is outstanding, a connection before the first one. -/
def ContradictoryExit (machine : Machine) : Step → Prop
  | .intent .sendCommand _ =>
      machine.phase.isConnected = true ∧
        machine.measurement.pending = false ∧ machine.connection = none
  | .event (.received _ _) =>
      machine.phase ≠ .terminated ∧ machine.measurement.pending = true ∧
        machine.measurement.issuedAt = none
  | .event (.established _) =>
      machine.phase = .awaitingConnection ∧ machine.connection ≠ none
  | _ => False

/-! ### Nothing is outstanding outside two phases -/

theorem Consistent.idle {machine : Machine} (consistent : machine.Consistent)
    (still : machine.phase ≠ .sending) (unasked : machine.phase ≠ .awaitingAck) :
    machine.measurement.pending = false := by
  cases pending : machine.measurement.pending with
  | false => rfl
  | true =>
      rcases consistent.outstanding.mp pending with sending | awaiting
      · exact absurd sending still
      · exact absurd awaiting unasked

theorem Consistent.idle_of_waiting {machine : Machine}
    (consistent : machine.Consistent)
    (waiting : machine.phase = .awaitingConnection) :
    machine.measurement.pending = false :=
  consistent.idle (by rw [waiting]; decide) (by rw [waiting]; decide)

theorem Consistent.idle_of_terminated {machine : Machine}
    (consistent : machine.Consistent) (finished : machine.phase = .terminated) :
    machine.measurement.pending = false :=
  consistent.idle (by rw [finished]; decide) (by rw [finished]; decide)

theorem going_of_connected {machine : Machine}
    (connected : machine.phase.isConnected = true) :
    machine.phase ≠ .terminated := by
  intro finished
  rw [finished] at connected
  cases connected

theorem Consistent.free {machine : Machine} (consistent : machine.Consistent)
    (waiting : machine.phase = .awaitingConnection) :
    machine.connection = none := by
  cases held : machine.connection with
  | none => rfl
  | some connection =>
      have phase := consistent.held.mp (by rw [held]; rfl)
      rw [waiting] at phase
      simp at phase

theorem Consistent.holds {machine : Machine} (consistent : machine.Consistent)
    (connected : machine.phase.isConnected = true) :
    machine.connection.isSome = true := by
  apply consistent.held.mpr
  cases phase : machine.phase <;>
    simp [phase, Phase.isConnected] at connected ⊢

theorem Consistent.going_of_held {machine : Machine}
    (consistent : machine.Consistent) {connection : Connection}
    (held : machine.connection = some connection) :
    machine.phase ≠ .terminated := by
  intro finished
  have phase := consistent.held.mp (by rw [held]; rfl)
  rw [finished] at phase
  simp at phase

theorem Consistent.idle_of_ignored {machine : Machine}
    (consistent : machine.Consistent) {payload : Payload}
    {receivedAt : Instant}
    (ignores : machine.Ignores (.event (.received payload receivedAt))) :
    machine.measurement.pending = false := by
  rcases ignores with finished | idle | missing
  · exact consistent.idle_of_terminated finished
  · exact idle
  · cases pending : machine.measurement.pending with
    | false => rfl
    | true =>
        have stamped := consistent.stamped pending
        rw [missing] at stamped
        cases stamped

/-! ### Each transition preserves the agreement -/

theorem start_consistent (transport : Transport) (listening : Bool) :
    (start transport listening).Consistent where
  held := by simp [start]
  outstanding := by simp [start]
  stamped := by simp [start]
  reported := by simp [start]
  listener := by simp [start]
  fresh := by
    intro _
    exact ⟨rfl, rfl, rfl⟩

theorem adopted_consistent {machine : Machine} (connection : Connection)
    (consistent : machine.Consistent)
    (waiting : machine.phase = .awaitingConnection) :
    (machine.adopted connection).Consistent where
  held := by simp [adopted]
  outstanding := by
    have outstanding := consistent.outstanding
    rw [waiting] at outstanding
    simpa [adopted] using outstanding
  stamped := consistent.stamped
  reported := by
    have reported := consistent.reported
    rw [waiting] at reported
    simpa [adopted] using reported
  listener := by simp [adopted]
  fresh := by simp [adopted]

theorem issued_consistent {machine : Machine} (now : Instant)
    (consistent : machine.Consistent)
    (connected : machine.phase.isConnected = true)
    (held : machine.connection.isSome = true) :
    (machine.issued now).Consistent where
  held := by simp [issued, held]
  outstanding := by simp [issued]
  stamped := by simp [issued]
  reported := by
    have going : machine.phase ≠ .terminated := by
      intro finished
      rw [finished] at connected
      cases connected
    have silent := mt consistent.reported.mp going
    simpa [issued] using silent
  listener := by
    intro listening
    have waiting := consistent.listener listening
    rw [waiting] at connected
    cases connected
  fresh := by simp [issued]

theorem written_consistent {machine : Machine}
    (consistent : machine.Consistent) (sending : machine.phase = .sending) :
    machine.written.Consistent where
  held := by
    have held := consistent.held
    rw [sending] at held
    simpa [written] using held
  outstanding := by
    have outstanding := consistent.outstanding
    rw [sending] at outstanding
    simpa [written] using outstanding
  stamped := consistent.stamped
  reported := by
    have reported := consistent.reported
    rw [sending] at reported
    simpa [written] using reported
  listener := by
    intro listening
    have waiting := consistent.listener listening
    rw [sending] at waiting
    cases waiting
  fresh := by simp [written]

theorem answered_consistent {machine : Machine}
    (issuedAt receivedAt : Instant) (consistent : machine.Consistent)
    (pending : machine.measurement.pending = true) :
    (machine.answered issuedAt receivedAt).Consistent where
  held := by
    have phase := consistent.outstanding.mp pending
    have held := consistent.held.mpr (.inr phase)
    simp [answered, held]
  outstanding := by simp [answered]
  stamped := by simp [answered]
  reported := by
    have phase := consistent.outstanding.mp pending
    have going : machine.phase ≠ .terminated := by
      rcases phase with sending | awaiting
      · rw [sending]; decide
      · rw [awaiting]; decide
    have silent := mt consistent.reported.mp going
    simpa [answered] using silent
  listener := by
    intro listening
    have waiting := consistent.listener listening
    have phase := consistent.outstanding.mp pending
    rw [waiting] at phase
    simp at phase
  fresh := by simp [answered]

theorem ended_consistent (machine : Machine) (reason : Termination) :
    (machine.ended reason).Consistent where
  held := by simp [ended]
  outstanding := by simp [ended]
  stamped := by simp [ended]
  reported := by simp [ended]
  listener := by simp [ended]
  fresh := by simp [ended]

/-- Every step preserves the agreement. -/
theorem after_consistent (machine : Machine) (step : Step)
    (consistent : machine.Consistent) : (machine.after step).Consistent := by
  obtain ⟨reached, calls, next, taken⟩ := machine.exists_transition step
  rw [next]
  cases taken with
  | adopt connection waiting _ =>
      exact adopted_consistent connection consistent waiting
  | issue now connection connected _ held =>
      have some : machine.connection.isSome = true := by rw [held]; rfl
      exact issued_consistent now consistent connected some
  | write _ sending => exact written_consistent consistent sending
  | answer _ issuedAt receivedAt _ pending _ =>
      exact answered_consistent issuedAt receivedAt consistent pending
  | cancel _ => exact ended_consistent machine .cancelled
  | fail fault _ => exact ended_consistent machine (.fault fault)
  | shut reason _ => exact ended_consistent machine reason
  | ignore _ _ => exact consistent

theorem run_consistent (transport : Transport) (listening : Bool)
    (steps : List Step) :
    ((start transport listening).run steps).Consistent :=
  run_keeps Consistent after_consistent _
    (start_consistent transport listening) steps

/-! ### The listener -/

/-- Whether a machine listens for as long as it waits for its connection. -/
def ListensWhileWaiting (machine : Machine) : Prop :=
  machine.listening = true ↔ machine.phase = .awaitingConnection

theorem after_listensWhileWaiting (machine : Machine) (step : Step)
    (consistent : machine.Consistent)
    (listens : machine.ListensWhileWaiting) :
    (machine.after step).ListensWhileWaiting := by
  obtain ⟨reached, calls, next, taken⟩ := machine.exists_transition step
  rw [next]
  unfold ListensWhileWaiting at listens ⊢
  cases taken with
  | adopt _ _ _ => simp [adopted]
  | issue now _ connected _ _ =>
      have elsewhere : machine.phase ≠ .awaitingConnection := by
        intro waiting
        rw [waiting] at connected
        cases connected
      simpa [issued, elsewhere] using listens
  | write _ sending =>
      rw [sending] at listens
      simpa [written] using listens
  | answer _ issuedAt receivedAt _ pending _ =>
      have elsewhere : machine.phase ≠ .awaitingConnection := by
        rcases consistent.outstanding.mp pending with sending | awaiting
        · rw [sending]; decide
        · rw [awaiting]; decide
      simpa [answered, elsewhere] using listens
  | cancel _ => simp [ended]
  | fail _ _ => simp [ended]
  | shut _ _ => simp [ended]
  | ignore _ _ => exact listens

theorem run_listensWhileWaiting (transport : Transport) (steps : List Step) :
    ((start transport true).run steps).ListensWhileWaiting := by
  have both := run_keeps
    (fun machine => machine.Consistent ∧ machine.ListensWhileWaiting)
    (fun machine step holds =>
      ⟨after_consistent machine step holds.1,
        after_listensWhileWaiting machine step holds.1 holds.2⟩)
    (start transport true)
    ⟨start_consistent transport true, by simp [ListensWhileWaiting, start]⟩
    steps
  exact both.2

/-! ### What cannot happen -/

/-- A machine whose fields agree takes none of the exits that are provided
for contradictions. -/
theorem Consistent.no_contradictoryExit {machine : Machine}
    (consistent : machine.Consistent) (step : Step) :
    ¬ machine.ContradictoryExit step := by
  intro taken
  cases step with
  | intent intent now =>
      cases intent with
      | sendCommand =>
          obtain ⟨connected, _, missing⟩ := taken
          have held := consistent.holds connected
          rw [missing] at held
          cases held
  | event event =>
      cases event with
      | established connection =>
          obtain ⟨waiting, present⟩ := taken
          exact present (consistent.free waiting)
      | received payload receivedAt =>
          obtain ⟨_, pending, missing⟩ := taken
          have stamped := consistent.stamped pending
          rw [missing] at stamped
          cases stamped
      | sent length => exact taken
      | cancelled => exact taken
      | failed fault => exact taken
  | shutdown reason => exact taken

/-- In every state that a machine can reach its fields agree with its phase,
it listens only while it waits for its connection, and for as long as it does
if it was given a listener, and no exit for contradictory states is ever
taken. -/
theorem reachable_fields_agree (transport : Transport) (listening : Bool)
    (steps : List Step) :
    ((start transport listening).run steps).Consistent ∧
      ((start transport true).run steps).ListensWhileWaiting ∧
      ∀ step,
        ¬ ((start transport listening).run steps).ContradictoryExit step :=
  have consistent := run_consistent transport listening steps
  ⟨consistent, run_listensWhileWaiting transport steps,
    consistent.no_contradictoryExit⟩

end LatencyBench.Machine

/-
What single events, presses and the end of a session do to the measurement of
a machine whose fields agree.
-/

import LatencyBench.Proofs.Machine.Consistency

namespace LatencyBench

def Event.arrival? : Event → Option Instant
  | .received _ receivedAt => some receivedAt
  | _ => none

@[simp] theorem Aggregate.record_samples (stats : Aggregate Float)
    (sample : Float) :
    (stats.record sample).samples = stats.samples + 1 := by
  unfold Aggregate.record
  dsimp only
  split <;> rfl

namespace Machine

@[simp] theorem answered_samples (machine : Machine)
    (issuedAt receivedAt : Instant) :
    (machine.answered issuedAt receivedAt).stats.samples =
      machine.stats.samples + 1 :=
  machine.stats.record_samples _

/-! ### Events -/

theorem after_issuedAt (machine : Machine) (step : Step) :
    (machine.after step).measurement.issuedAt =
        machine.measurement.issuedAt ∨
      ∃ intent now, step = .intent intent now ∧
        (machine.after step).measurement.issuedAt = some now := by
  obtain ⟨reached, calls, next, taken⟩ := machine.exists_transition step
  rw [next]
  cases taken with
  | issue now _ _ _ _ => exact .inr ⟨.sendCommand, now, rfl, rfl⟩
  | adopt _ _ _ => exact .inl rfl
  | write _ _ => exact .inl rfl
  | answer _ _ _ _ _ _ => exact .inl rfl
  | cancel _ => exact .inl rfl
  | fail _ _ => exact .inl rfl
  | shut _ _ => exact .inl rfl
  | ignore _ _ => exact .inl rfl

/-- An event that is neither a message nor a fault leaves the measurement. -/
theorem after_quiet_measurement (machine : Machine) (event : Event)
    (consistent : machine.Consistent) (quiet : event.arrival? = none)
    (harmless : ∀ fault, event ≠ .failed fault) :
    (machine.after (.event event)).measurement = machine.measurement := by
  obtain ⟨reached, calls, next, taken⟩ :=
    machine.exists_transition (.event event)
  rw [next]
  cases taken with
  | adopt _ _ _ => rfl
  | write _ _ => rfl
  | answer _ _ _ _ _ _ => cases quiet
  | cancel waiting =>
      simp only [ended, ← consistent.idle_of_waiting waiting]
  | fail fault _ => exact absurd rfl (harmless fault)
  | ignore _ _ => rfl

theorem after_loud_idle (machine : Machine) (event : Event)
    (consistent : machine.Consistent)
    (loud : event.arrival? ≠ none ∨ ∃ fault, event = .failed fault) :
    (machine.after (.event event)).measurement.pending = false := by
  obtain ⟨reached, calls, next, taken⟩ :=
    machine.exists_transition (.event event)
  rw [next]
  cases taken with
  | adopt _ _ _ => simp [Event.arrival?] at loud
  | write _ _ => simp [Event.arrival?] at loud
  | answer _ _ _ _ _ _ => rfl
  | cancel _ => rfl
  | fail _ _ => rfl
  | ignore _ ignores =>
      cases event with
      | established _ => simp [Event.arrival?] at loud
      | sent _ => simp [Event.arrival?] at loud
      | cancelled => simp [Event.arrival?] at loud
      | failed _ => exact consistent.idle_of_terminated ignores
      | received _ _ => exact consistent.idle_of_ignored ignores

theorem after_received_samples (machine : Machine) (payload : Payload)
    (receivedAt : Instant) (consistent : machine.Consistent) :
    (machine.after (.event (.received payload receivedAt))).stats.samples =
        machine.stats.samples + 1 ↔
      machine.measurement.pending = true := by
  obtain ⟨reached, calls, next, taken⟩ :=
    machine.exists_transition (.event (.received payload receivedAt))
  rw [next]
  cases taken with
  | answer _ _ _ _ pending _ =>
      exact ⟨fun _ => pending, fun _ => machine.stats.record_samples _⟩
  | ignore _ ignores =>
      constructor
      · intro more
        omega
      · intro pending
        rw [consistent.idle_of_ignored ignores] at pending
        cases pending

theorem shutdown_terminates (machine : Machine) (reason : Termination) :
    (machine.after (.shutdown reason)).phase = .terminated := by
  obtain ⟨reached, calls, next, taken⟩ :=
    machine.exists_transition (.shutdown reason)
  rw [next]
  cases taken with
  | shut _ _ => rfl
  | ignore _ finished => exact finished

/-! ### Presses -/

theorem run_presses_ignored (machine : Machine) (intents : List Intent)
    (now : Instant)
    (busy : machine.phase.isConnected = false ∨
      machine.measurement.pending = true) :
    machine.run (intents.map fun intent => .intent intent now) = machine := by
  induction intents with
  | nil => rfl
  | cons intent rest inductionHypothesis =>
      have still : machine.after (.intent intent now) = machine := by
        obtain ⟨reached, calls, next, taken⟩ :=
          machine.exists_transition (.intent intent now)
        rw [next]
        cases taken with
        | issue _ _ connected idle _ =>
            rcases busy with apart | pending
            · rw [connected] at apart
              cases apart
            · rw [idle] at pending
              cases pending
        | ignore _ _ => rfl
      rw [List.map_cons, run_cons, still]
      exact inductionHypothesis

/-- A connected machine without an outstanding command takes the first of
several presses and ignores the others. -/
theorem run_presses_issued (machine : Machine) (intents : List Intent)
    (now : Instant) (consistent : machine.Consistent)
    (connected : machine.phase.isConnected = true)
    (idle : machine.measurement.pending = false)
    (some : intents ≠ []) :
    machine.run (intents.map fun intent => .intent intent now) =
      machine.issued now := by
  cases intents with
  | nil => exact absurd rfl some
  | cons intent rest =>
      have taken : machine.after (.intent intent now) =
          machine.issued now := by
        obtain ⟨reached, calls, next, taken⟩ :=
          machine.exists_transition (.intent intent now)
        rw [next]
        cases taken with
        | issue _ _ _ _ _ => rfl
        | ignore _ ignores =>
            exfalso
            rcases ignores with apart | pending | missing
            · rw [connected] at apart
              cases apart
            · rw [idle] at pending
              cases pending
            · have held := consistent.holds connected
              rw [missing] at held
              cases held
      rw [List.map_cons, run_cons, taken]
      exact run_presses_ignored (machine.issued now) rest now (.inr rfl)

end Machine

end LatencyBench

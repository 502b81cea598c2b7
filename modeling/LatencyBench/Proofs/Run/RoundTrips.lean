/-
The round trips that a machine records.

A message records one if a measurement is outstanding, from the start of that
measurement to the message.  The aggregate and the last round trip of a machine
are what its steps have recorded, whatever else they were.
-/

import LatencyBench.Proofs.Run.Ticks

namespace LatencyBench

variable {ω : Type}

/-! ### Aggregates of lists -/

@[simp] theorem Aggregate.recordAll_nil (stats : Aggregate Float) :
    stats.recordAll [] = stats := rfl

theorem Aggregate.recordAll_append (stats : Aggregate Float)
    (first later : List Float) :
    stats.recordAll (first ++ later) =
      (stats.recordAll first).recordAll later :=
  List.foldl_append

theorem Aggregate.recordAll_samples (stats : Aggregate Float)
    (trips : List Float) :
    (stats.recordAll trips).samples = stats.samples + trips.length := by
  induction trips generalizing stats with
  | nil => rfl
  | cons trip rest inductionHypothesis =>
      have onward := inductionHypothesis (stats.record trip)
      rw [record_samples] at onward
      change ((stats.record trip).recordAll rest).samples = _
      rw [onward, List.length_cons]
      omega

/-! ### Single steps -/

namespace Machine

def roundTrip? (machine : Machine) : Step → Option Float
  | .event (.received _ receivedAt) =>
      if machine.measurement.pending then
        machine.measurement.issuedAt.map fun issuedAt =>
          roundTrip issuedAt receivedAt
      else none
  | _ => none

/-- Whether a machine has come from another by recording some round trips and
no others. -/
structure Records (before after : Machine) (trips : List Float) : Prop where
  stats : after.stats = before.stats.recordAll trips
  last : after.measurement.lastRoundTrip =
    trips.getLast?.getD before.measurement.lastRoundTrip

variable {first middle last : Machine} {earlier later trips : List Float}

theorem Records.refl (machine : Machine) : Records machine machine [] where
  stats := rfl
  last := rfl

theorem Records.trans (there : Records first middle earlier)
    (onward : Records middle last later) :
    Records first last (earlier ++ later) where
  stats := by
    rw [onward.stats, there.stats, Aggregate.recordAll_append]
  last := by
    rw [onward.last, there.last, List.getLast?_append]
    cases later.getLast? <;> rfl

theorem Records.samples (records : Records first last trips) :
    last.stats.samples = first.stats.samples + trips.length := by
  rw [records.stats, Aggregate.recordAll_samples]

theorem Records.nothing (records : Records first last trips)
    (same : last.stats = first.stats) : trips = [] := by
  have samples := records.samples
  rw [same] at samples
  exact List.eq_nil_of_length_eq_zero (by omega)

theorem Consistent.roundTrip?_of_ignores {machine : Machine} {step : Step}
    (consistent : machine.Consistent) (ignores : machine.Ignores step) :
    machine.roundTrip? step = none := by
  cases step with
  | intent intent now => rfl
  | shutdown reason => rfl
  | event event =>
      cases event with
      | received payload receivedAt =>
          simp [roundTrip?, consistent.idle_of_ignored ignores]
      | established connection => rfl
      | sent length => rfl
      | cancelled => rfl
      | failed fault => rfl

theorem Consistent.records {machine : Machine}
    (consistent : machine.Consistent) (step : Step) :
    Records machine (machine.after step)
      (machine.roundTrip? step).toList := by
  obtain ⟨reached, calls, next, taken⟩ := machine.exists_transition step
  rw [next]
  cases taken with
  | answer payload issuedAt receivedAt _ pending stamped =>
      have trip : machine.roundTrip? (.event (.received payload receivedAt)) =
          some (roundTrip issuedAt receivedAt) := by
        simp [roundTrip?, pending, stamped]
      rw [trip]
      exact ⟨rfl, rfl⟩
  | ignore _ ignores =>
      rw [consistent.roundTrip?_of_ignores ignores]
      exact .refl machine
  | adopt _ _ _ => exact ⟨rfl, rfl⟩
  | issue _ _ _ _ _ => exact ⟨rfl, rfl⟩
  | write _ _ => exact ⟨rfl, rfl⟩
  | cancel _ => exact ⟨rfl, rfl⟩
  | fail _ _ => exact ⟨rfl, rfl⟩
  | shut _ _ => exact ⟨rfl, rfl⟩

end Machine

/-! ### Moments -/

/-- The round trips recorded at some moments, in order. -/
def roundTripsAt (moments : List (Moment ω)) : List Float :=
  moments.flatMap fun moment =>
    (moment.machine.roundTrip? moment.step).toList

theorem roundTripsAt_append (earlier later : List (Moment ω)) :
    roundTripsAt (earlier ++ later) =
      roundTripsAt earlier ++ roundTripsAt later :=
  List.flatMap_append

theorem Leads.keeps {first last : Machine} {moments : List (Moment ω)}
    (leads : Leads first moments last) {kept : Machine → Prop}
    (steps : ∀ machine step, kept machine → kept (machine.after step))
    (holds : kept first) : kept last := by
  induction leads with
  | stay machine => exact holds
  | take moment rest last _ inductionHypothesis =>
      exact inductionHypothesis (steps moment.machine moment.step holds)

/-- The moments of a run record all that the run records. -/
theorem Leads.records {first last : Machine} {moments : List (Moment ω)}
    (leads : Leads first moments last) (consistent : first.Consistent) :
    Machine.Records first last (roundTripsAt moments) := by
  induction leads with
  | stay machine => exact .refl machine
  | take moment rest last _ inductionHypothesis =>
      have here := consistent.records moment.step
      have onward := inductionHypothesis
        (moment.machine.after_consistent moment.step consistent)
      exact here.trans onward

/-! ### The end of a session -/

namespace Engine

theorem Halted.measured {φ : Type} {frontend : φ} {engine : Engine}
    {reason : Termination} {reached : Tick ω φ}
    (halted : Halted frontend engine reason reached) :
    reached.engine.machine.stats = engine.machine.stats ∧
      reached.engine.machine.measurement.lastRoundTrip =
        engine.machine.measurement.lastRoundTrip := by
  rw [halted.machine]
  exact ⟨rfl, rfl⟩

theorem InStep.release_measured {σ : Type} {engine : Engine}
    (inStep : engine.InStep) (around : Surroundings ω σ) (world : ω) :
    (engine.release around world).engine.machine.stats =
        engine.machine.stats ∧
      (engine.release around world).engine.machine.measurement.lastRoundTrip =
        engine.machine.measurement.lastRoundTrip := by
  cases running : engine.running with
  | false =>
      rw [release_over running]
      exact ⟨rfl, rfl⟩
  | true =>
      obtain ⟨reached, halted, same⟩ :=
        inStep.released running around world ()
      rw [same]
      exact halted.measured

end Engine

end LatencyBench

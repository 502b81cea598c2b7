/-
Commands are conserved.

While a session goes on every command that was counted is answered or
outstanding.  Each counted command is one send on a connection, and each
counted answer arms the connection again.  The end of the session leaves the
counters as they are, so that at most one command is lost: the one that was
outstanding then.
-/

import LatencyBench.Proofs.Machine.Adoption
import LatencyBench.Proofs.Machine.Measurement

namespace LatencyBench

def Call.isSend : Call → Bool
  | .send _ => true
  | _ => false

def Call.isArm : Call → Bool
  | .arm => true
  | _ => false

namespace Machine

/-- The number of commands that are out and not answered. -/
def outstanding (machine : Machine) : Nat :=
  machine.measurement.pending.toNat

def callCount (kind : Call → Bool) (made : List ConnectionCall) : Nat :=
  made.countP fun one => kind one.call

/-- Whether the counters of a machine agree with what is outstanding. -/
structure Balanced (machine : Machine) : Prop where
  going : machine.phase ≠ .terminated →
    machine.sends = machine.stats.samples + machine.outstanding
  lost : machine.sends ≤ machine.stats.samples + 1

variable {machine reached : Machine} {step : Step}
  {calls : List ConnectionCall}

/-! ### What one step does to the counters -/

theorem start_balanced (transport : Transport) (listening : Bool) :
    (start transport listening).Balanced where
  going := by
    intro _
    rfl
  lost := Nat.zero_le 1

theorem outstanding_of_pending (pending : machine.measurement.pending = true) :
    machine.outstanding = 1 := by
  rw [outstanding, pending]
  rfl

theorem outstanding_of_idle (idle : machine.measurement.pending = false) :
    machine.outstanding = 0 := by
  rw [outstanding, idle]
  rfl

/-- A machine with the counters of a balanced one is balanced if it still
goes on only where that one did. -/
theorem Balanced.same (balanced : machine.Balanced)
    (sends : reached.sends = machine.sends)
    (samples : reached.stats.samples = machine.stats.samples)
    (outstanding : reached.phase ≠ .terminated →
      machine.phase ≠ .terminated ∧
        reached.outstanding = machine.outstanding) :
    reached.Balanced where
  going := by
    intro going
    obtain ⟨before, same⟩ := outstanding going
    rw [sends, samples, same]
    exact balanced.going before
  lost := by
    rw [sends, samples]
    exact balanced.lost

theorem Balanced.ended (balanced : machine.Balanced) (reason : Termination) :
    (machine.ended reason).Balanced :=
  balanced.same rfl rfl fun going => absurd rfl going

theorem Transition.balanced (taken : machine.Transition step reached calls)
    (balanced : machine.Balanced) : reached.Balanced := by
  cases taken with
  | adopt connection waiting _ =>
      have going : machine.phase ≠ .terminated := by rw [waiting]; decide
      exact balanced.same rfl rfl fun _ => ⟨going, rfl⟩
  | issue now connection connected idle _ =>
      have even := balanced.going (going_of_connected connected)
      rw [outstanding_of_idle idle] at even
      constructor
      · intro _
        change machine.sends + 1 = machine.stats.samples + 1
        omega
      · change machine.sends + 1 ≤ machine.stats.samples + 1
        omega
  | write length sending =>
      have going : machine.phase ≠ .terminated := by rw [sending]; decide
      exact balanced.same rfl rfl fun _ => ⟨going, rfl⟩
  | answer payload issuedAt receivedAt going pending _ =>
      have ahead := balanced.going going
      rw [outstanding_of_pending pending] at ahead
      have samples := machine.answered_samples issuedAt receivedAt
      have sends : (machine.answered issuedAt receivedAt).sends =
          machine.sends := rfl
      constructor
      · intro _
        rw [outstanding_of_idle rfl]
        omega
      · omega
  | cancel _ => exact balanced.ended .cancelled
  | fail fault _ => exact balanced.ended (.fault fault)
  | shut reason _ => exact balanced.ended reason
  | ignore _ _ => exact balanced

/-! ### What one step does to the calls -/

theorem callCount_append (kind : Call → Bool)
    (first later : List ConnectionCall) :
    callCount kind (first ++ later) =
      callCount kind first + callCount kind later :=
  List.countP_append

theorem callCount_parting {kind : Call → Bool} {made : List ConnectionCall}
    (other : kind .close = false ∧ kind .drop = false)
    (parting : ∀ one ∈ made, one.call ∈ [Call.close, Call.drop]) :
    callCount kind made = 0 := by
  apply List.countP_eq_zero.mpr
  intro one member
  have call := parting one member
  rcases List.mem_cons.mp call with close | rest
  · rw [close, other.1]
    decide
  · rw [List.mem_singleton.mp rest, other.2]
    decide

theorem callCount_ended {kind : Call → Bool}
    (other : kind .close = false ∧ kind .drop = false) (machine : Machine) :
    callCount kind (machine.callsOnHeld [.close, .drop]) = 0 :=
  callCount_parting other fun _ member => (mem_callsOnHeld.mp member).2

theorem callCount_refusal {kind : Call → Bool}
    (other : kind .close = false ∧ kind .drop = false) (machine : Machine)
    (step : Step) : callCount kind (machine.refusal step) = 0 :=
  callCount_parting other fun _ member => (refusal_parts member).2

/-- Each step sends as often as it counts commands. -/
theorem Transition.sends (taken : machine.Transition step reached calls) :
    reached.sends = machine.sends + callCount Call.isSend calls := by
  have other : Call.isSend .close = false ∧ Call.isSend .drop = false :=
    ⟨rfl, rfl⟩
  cases taken with
  | adopt _ _ _ => rfl
  | issue _ _ _ _ _ => rfl
  | write _ _ => rfl
  | answer _ _ _ _ _ _ =>
      unfold callsOnHeld
      cases machine.connection <;> rfl
  | cancel _ => rw [callCount_ended other]; rfl
  | fail _ _ => rw [callCount_ended other]; rfl
  | shut _ _ => rw [callCount_ended other]; rfl
  | ignore step _ => rw [callCount_refusal other]; rfl

/-- Each step arms as often as it takes a connection over or counts an
answer. -/
theorem Transition.arms (taken : machine.Transition step reached calls)
    (consistent : machine.Consistent) :
    reached.stats.samples + (machine.adopted? step).toList.length =
      machine.stats.samples + callCount Call.isArm calls := by
  have other : Call.isArm .close = false ∧ Call.isArm .drop = false :=
    ⟨rfl, rfl⟩
  have nothing : step.delivered? = none → machine.adopted? step = none := by
    intro silent
    rw [adopted?, silent, ite_self]
  cases taken with
  | adopt connection waiting _ =>
      rw [adopted?, if_pos waiting]
      rfl
  | issue _ _ _ _ _ => rw [nothing rfl]; rfl
  | write _ _ => rw [nothing rfl]; rfl
  | answer payload issuedAt receivedAt _ pending _ =>
      have phase := consistent.outstanding.mp pending
      obtain ⟨connection, held⟩ :=
        Option.isSome_iff_exists.mp (consistent.held.mpr (.inr phase))
      rw [nothing rfl, answered_samples, callsOnHeld, held]
      rfl
  | cancel _ => rw [nothing rfl, callCount_ended other]; rfl
  | fail _ _ => rw [nothing rfl, callCount_ended other]; rfl
  | shut _ _ => rw [nothing rfl, callCount_ended other]; rfl
  | ignore step ignores =>
      rw [consistent.adopted?_of_ignores ignores, callCount_refusal other]
      rfl

theorem Transition.ends (taken : machine.Transition step reached calls)
    (going : machine.phase ≠ .terminated)
    (finished : reached.phase = .terminated) :
    ∃ reason, reached = machine.ended reason := by
  cases taken with
  | adopt _ _ _ => cases finished
  | issue _ _ _ _ _ => cases finished
  | write _ _ => cases finished
  | answer _ _ _ _ _ _ => cases finished
  | cancel _ => exact ⟨.cancelled, rfl⟩
  | fail fault _ => exact ⟨.fault fault, rfl⟩
  | shut reason _ => exact ⟨reason, rfl⟩
  | ignore _ _ => exact absurd finished going

/-! ### Whole runs -/

theorem run_balanced (transport : Transport) (listening : Bool)
    (steps : List Step) :
    ((start transport listening).run steps).Balanced :=
  run_keeps Balanced
    (fun machine step balanced => (machine.transition step).balanced balanced)
    _ (start_balanced transport listening) steps

theorem run_sends (machine : Machine) (steps : List Step) :
    (machine.run steps).sends =
      machine.sends + callCount Call.isSend (machine.callsOf steps) := by
  induction steps generalizing machine with
  | nil => rfl
  | cons step rest inductionHypothesis =>
      have first := (machine.transition step).sends
      have later := inductionHypothesis (machine.after step)
      rw [run_cons, callsOf_cons, callCount_append]
      omega

theorem run_arms (machine : Machine) (consistent : machine.Consistent)
    (steps : List Step) :
    (machine.run steps).stats.samples + (machine.adoptions steps).length =
      machine.stats.samples +
        callCount Call.isArm (machine.callsOf steps) := by
  induction steps generalizing machine with
  | nil => rfl
  | cons step rest inductionHypothesis =>
      have first := (machine.transition step).arms consistent
      have later := inductionHypothesis (machine.after step)
        (after_consistent machine step consistent)
      rw [run_cons, callsOf_cons, callCount_append, adoptions,
        List.length_append]
      omega

/-- What holds of a run from a new machine: commands are answered or
outstanding, calls are counted, and the end keeps the record. -/
structure Conserved (origin : Machine) (steps : List Step) : Prop where
  going : (origin.run steps).phase ≠ .terminated →
    (origin.run steps).sends =
      (origin.run steps).stats.samples + (origin.run steps).outstanding
  sent : callCount Call.isSend (origin.callsOf steps) =
    (origin.run steps).sends
  armed : callCount Call.isArm (origin.callsOf steps) =
    (origin.run steps).stats.samples +
      if origin.adoptions steps = [] then 0 else 1
  lost : (origin.run steps).sends ≤ (origin.run steps).stats.samples + 1
  frozen : ∀ before step later, steps = before ++ step :: later →
    (origin.run before).phase ≠ .terminated →
    (origin.run (before ++ [step])).phase = .terminated →
    (origin.run steps).sends = (origin.run before).sends ∧
      (origin.run steps).stats = (origin.run before).stats ∧
      (origin.run steps).measurement.lastRoundTrip =
        (origin.run before).measurement.lastRoundTrip ∧
      (origin.run steps).measurement.issuedAt =
        (origin.run before).measurement.issuedAt ∧
      (origin.run steps).sends =
        (origin.run steps).stats.samples + (origin.run before).outstanding

/-- In every state that a machine can reach its commands are conserved. -/
theorem reachable_commands_conserved (transport : Transport)
    (listening : Bool) (steps : List Step) :
    (start transport listening).Conserved steps where
  going := (run_balanced transport listening steps).going
  sent := by
    rw [run_sends]
    exact (Nat.zero_add _).symm
  armed := by
    have consistent := start_consistent transport listening
    have armed := run_arms _ consistent steps
    have single := adoptions_length_le _ consistent steps
    have fresh : (start transport listening).stats.samples = 0 := rfl
    split
    · rename_i none
      rw [none, List.length_nil] at armed
      omega
    · rename_i some
      have positive := List.length_pos_iff.mpr some
      omega
  lost := (run_balanced transport listening steps).lost
  frozen := by
    rintro before step later rfl going finished
    have balanced := (run_balanced transport listening before).going going
    rw [run_append, run_cons, run_nil] at finished
    obtain ⟨reason, ended⟩ :=
      (((start transport listening).run before).transition step).ends going
        finished
    have last : (start transport listening).run (before ++ step :: later) =
        ((start transport listening).run before).ended reason := by
      rw [run_append, run_cons, run_of_terminated _ _ finished, ended]
    rw [last]
    exact ⟨rfl, rfl, rfl, rfl, balanced⟩

end Machine

end LatencyBench

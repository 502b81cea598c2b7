/-
Taking a connection over.

A machine takes over the first connection that is delivered while it waits for
one, and never waits again.  Any other one is refused within the step that
delivers it.
-/

import LatencyBench.Proofs.Machine.Consistency

namespace LatencyBench.Machine

def Step.delivered? : Step → Option Connection
  | .event (.established connection) => some connection
  | _ => none

/-- The connection that a machine takes over in a step: one that is delivered
while it waits. -/
def adopted? (machine : Machine) (step : Step) : Option Connection :=
  if machine.phase = .awaitingConnection then step.delivered? else none

def adoptions (machine : Machine) : List Step → List Connection
  | [] => []
  | step :: rest =>
      (machine.adopted? step).toList ++ (machine.after step).adoptions rest

variable {machine reached : Machine} {step : Step}
  {calls : List ConnectionCall} {connection : Connection}

/-! ### The step that delivers a connection -/

theorem Step.delivered?_eq_some :
    step.delivered? = some connection ↔
      step = .event (.established connection) := by
  unfold Step.delivered?
  split
  · simp
  · rename_i silent
    constructor
    · exact nofun
    · rintro rfl
      exact absurd rfl (silent connection)

theorem adopted?_eq_some :
    machine.adopted? step = some connection ↔
      machine.phase = .awaitingConnection ∧
        step = .event (.established connection) := by
  rw [adopted?, Option.ite_none_right_eq_some, Step.delivered?_eq_some]

theorem Consistent.adopts (consistent : machine.Consistent)
    (waiting : machine.phase = .awaitingConnection)
    (connection : Connection) :
    machine.after (.event (.established connection)) =
        machine.adopted connection ∧
      (machine.react (.event (.established connection))).calls =
        [connection.does .arm] := by
  obtain ⟨reached, calls, next, made, taken⟩ :=
    machine.exists_reaction (.event (.established connection))
  rw [next, made]
  cases taken with
  | adopt _ _ _ => exact ⟨rfl, rfl⟩
  | ignore _ ignores =>
      rcases ignores with elsewhere | present
      · exact absurd waiting elsewhere
      · exact absurd (consistent.free waiting) present

/-- Once a machine has left its waiting, a connection that is delivered
changes nothing and is refused. -/
theorem refuses (left : machine.phase ≠ .awaitingConnection)
    (connection : Connection) :
    machine.after (.event (.established connection)) = machine ∧
      (machine.react (.event (.established connection))).calls =
        machine.refusal (.event (.established connection)) := by
  obtain ⟨reached, calls, next, made, taken⟩ :=
    machine.exists_reaction (.event (.established connection))
  rw [next, made]
  cases taken with
  | adopt _ waiting _ => exact absurd waiting left
  | ignore _ _ => exact ⟨rfl, rfl⟩

theorem Consistent.adopted?_of_ignores (consistent : machine.Consistent)
    (ignores : machine.Ignores step) : machine.adopted? step = none := by
  cases found : machine.adopted? step with
  | none => rfl
  | some connection =>
      obtain ⟨waiting, rfl⟩ := adopted?_eq_some.mp found
      rcases ignores with elsewhere | present
      · exact absurd waiting elsewhere
      · exact absurd (consistent.free waiting) present

/-! ### Runs -/

/-- A machine never returns to waiting for a connection. -/
theorem Transition.left (taken : machine.Transition step reached calls)
    (left : machine.phase ≠ .awaitingConnection) :
    reached.phase ≠ .awaitingConnection := by
  cases taken with
  | adopt _ waiting _ => exact absurd waiting left
  | issue _ _ _ _ _ => exact nofun
  | write _ _ => exact nofun
  | answer _ _ _ _ _ _ => exact nofun
  | cancel waiting => exact absurd waiting left
  | fail _ _ => exact nofun
  | shut _ _ => exact nofun
  | ignore _ _ => exact left

theorem adoptions_append (machine : Machine) (first later : List Step) :
    machine.adoptions (first ++ later) =
      machine.adoptions first ++ (machine.run first).adoptions later := by
  induction first generalizing machine with
  | nil => rfl
  | cons step rest inductionHypothesis =>
      rw [List.cons_append, adoptions, adoptions, inductionHypothesis,
        run_cons, List.append_assoc]

theorem adoptions_of_left (left : machine.phase ≠ .awaitingConnection)
    (steps : List Step) : machine.adoptions steps = [] := by
  induction steps generalizing machine with
  | nil => rfl
  | cons step rest inductionHypothesis =>
      have onward := (machine.transition step).left left
      rw [adoptions, adopted?, if_neg left, inductionHypothesis onward]
      rfl

theorem adoptions_length_le (machine : Machine)
    (consistent : machine.Consistent) (steps : List Step) :
    (machine.adoptions steps).length ≤ 1 := by
  induction steps generalizing machine with
  | nil => exact Nat.zero_le 1
  | cons step rest inductionHypothesis =>
      rw [adoptions]
      cases found : machine.adopted? step with
      | none =>
          exact inductionHypothesis (machine.after step)
            (after_consistent machine step consistent)
      | some connection =>
          obtain ⟨waiting, rfl⟩ := adopted?_eq_some.mp found
          rw [(consistent.adopts waiting connection).1,
            adoptions_of_left (by exact nofun)]
          exact Nat.le_refl 1

end LatencyBench.Machine

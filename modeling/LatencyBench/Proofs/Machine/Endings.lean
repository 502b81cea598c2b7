/-
The end of a session.

The first step that ends a session, read off the list of steps alone, is the
one that ends the machine, and its reason is the one that stays.  Nothing that
comes later changes the machine: the end absorbs.
-/

import LatencyBench.Proofs.Machine.Adoption
import LatencyBench.Proofs.Machine.Pairing
import Mathlib.Data.List.Induction

namespace LatencyBench.Machine

def Lasts (steps : List Step) : Prop :=
  ∀ before step later, steps = before ++ step :: later →
    step.ending? before = none

/-- When and how the machine ends in a run, and what stays from then on. -/
structure EndsExactly (origin : Machine) (steps : List Step) : Prop where
  terminated : (origin.run steps).phase = .terminated ↔
    ∃ before step later reason, steps = before ++ step :: later ∧
      step.ending? before = some reason
  first : ∀ before step later reason, steps = before ++ step :: later →
    Lasts before → step.ending? before = some reason →
    (origin.run steps).termination = some reason ∧
      (origin.run steps).connection = none ∧
      (origin.run steps).listening = false ∧
      origin.run steps = origin.run (before ++ [step])
  cancelled : ∀ before later, steps = before ++ .event .cancelled :: later →
    before.any Step.establishes = true →
    origin.run (before ++ [.event .cancelled]) = origin.run before

variable {machine : Machine} {transport : Transport} {listening : Bool}
  {steps past : List Step} {step : Step}

/-! ### The first step that ends a session -/

theorem lasts_nil : Lasts [] := by
  intro before step later split
  cases before <;> cases split

theorem Lasts.dropLast (lasts : Lasts (past ++ [step])) :
    Lasts past ∧ step.ending? past = none := by
  constructor
  · intro before earlier later split
    apply lasts before earlier (later ++ [step])
    rw [split, List.append_assoc, List.cons_append]
  · exact lasts past step [] rfl

theorem Lasts.concat (lasts : Lasts past) (lasting : step.ending? past = none) :
    Lasts (past ++ [step]) := by
  intro before other later split
  rcases List.eq_nil_or_concat later with rfl | ⟨between, last, rfl⟩
  · obtain ⟨rfl, same⟩ := List.append_inj' split rfl
    cases same
    exact lasting
  · rw [List.concat_eq_append, ← List.cons_append, ← List.append_assoc]
      at split
    exact lasts before other between (List.append_inj' split rfl).1

/-- A list of steps either lasts or has a first step that ends it. -/
theorem lasts_or_ends (steps : List Step) :
    Lasts steps ∨ ∃ before step later reason,
      steps = before ++ step :: later ∧ Lasts before ∧
        step.ending? before = some reason := by
  induction steps using List.reverseRecOn with
  | nil => exact .inl lasts_nil
  | append_singleton past step inductionHypothesis =>
      rcases inductionHypothesis with
        lasts | ⟨before, first, later, reason, rfl, lasts, ends⟩
      · cases ending : step.ending? past with
        | none => exact .inl (lasts.concat ending)
        | some reason =>
            exact .inr ⟨past, step, [], reason, rfl, lasts, ending⟩
      · right
        refine ⟨before, first, later ++ [step], reason, ?_, lasts, ends⟩
        rw [List.append_assoc, List.cons_append]

theorem Lasts.follows (lasts : Lasts past) :
    ((start transport listening).run past).Follows past := by
  induction past using List.reverseRecOn with
  | nil => exact start_follows transport listening
  | append_singleton past step inductionHypothesis =>
      obtain ⟨before, lasting⟩ := lasts.dropLast
      rw [run_append]
      exact (inductionHypothesis before).after step lasting

/-- The first step that ends the session ends the machine for good. -/
theorem Lasts.run_ending (lasts : Lasts past) {reason : Termination}
    (ends : step.ending? past = some reason) (later : List Step) :
    (start transport listening).run (past ++ step :: later) =
      ((start transport listening).run past).ended reason := by
  have follows : ((start transport listening).run past).Follows past :=
    lasts.follows
  rw [run_append, run_cons, follows.after_ending ends]
  exact run_of_terminated _ later rfl

/-! ### Cancellations -/

theorem Consistent.left_of_established (consistent : machine.Consistent)
    (connection : Connection) :
    (machine.after (.event (.established connection))).phase ≠
      .awaitingConnection := by
  by_cases waiting : machine.phase = .awaitingConnection
  · rw [(consistent.adopts waiting connection).1]
    exact nofun
  · exact (machine.transition _).left waiting

theorem run_left (met : steps.any Step.establishes = true) :
    ((start transport listening).run steps).phase ≠ .awaitingConnection := by
  obtain ⟨step, member, establishes⟩ := List.any_eq_true.mp met
  obtain ⟨connection, rfl⟩ := Step.exists_of_establishes establishes
  obtain ⟨before, later, rfl⟩ := List.append_of_mem member
  rw [run_append, run_cons]
  refine run_keeps (fun machine => machine.phase ≠ .awaitingConnection)
    (fun machine step left => (machine.transition step).left left) _ ?_ later
  exact (run_consistent transport listening before).left_of_established
    connection

theorem after_cancelled (left : machine.phase ≠ .awaitingConnection) :
    machine.after (.event .cancelled) = machine := by
  obtain ⟨reached, calls, next, taken⟩ :=
    machine.exists_transition (.event .cancelled)
  rw [next]
  cases taken with
  | cancel waiting => exact absurd waiting left
  | ignore _ _ => rfl

/-! ### Whole runs -/

/-- A session ends with the first step that ends it, for the reason of that
step, and stays as that step leaves it. -/
theorem session_ends_exactly (transport : Transport) (listening : Bool)
    (steps : List Step) :
    (start transport listening).EndsExactly steps where
  terminated := by
    rcases lasts_or_ends steps with
      lasts | ⟨before, step, later, reason, split, lasts, ends⟩
    · have follows : ((start transport listening).run steps).Follows steps :=
        lasts.follows
      constructor
      · intro finished
        exact absurd finished follows.going
      · rintro ⟨before, step, later, reason, split, ends⟩
        rw [lasts before step later split] at ends
        cases ends
    · constructor
      · intro _
        exact ⟨before, step, later, reason, split, ends⟩
      · intro _
        rw [split, lasts.run_ending ends later]
        rfl
  first := by
    rintro before step later reason rfl lasts ends
    have now : (start transport listening).run (before ++ [step]) =
        ((start transport listening).run before).ended reason :=
      lasts.run_ending ends []
    rw [lasts.run_ending ends later, now]
    exact ⟨rfl, rfl, rfl, rfl⟩
  cancelled := by
    rintro before later - met
    rw [run_append]
    exact after_cancelled (run_left met)

end LatencyBench.Machine

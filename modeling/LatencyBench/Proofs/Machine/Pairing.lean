/-
Measurements pair commands with their answers.

What a machine has counted, stamped and recorded after any run is what the
list of steps says by itself.  The induction is on the run, from the left; the
invariant ties the machine to the steps it has taken so far, and says that at
most the last accepted command is unanswered.
-/

import LatencyBench.Proofs.Machine.Consistency
import LatencyBench.Proofs.Machine.History
import Mathlib.Data.List.Basic

namespace LatencyBench.Machine

/-- A machine that has taken some steps, none of which ended its session. -/
structure Follows (machine : Machine) (past : List Step) : Prop where
  consistent : machine.Consistent
  going : machine.phase ≠ .terminated
  met : machine.phase ≠ .awaitingConnection ↔
    past.any Step.establishes = true
  sends : machine.sends = (commandsOf past).length
  issuedAt : machine.measurement.issuedAt =
    (commandsOf past).getLast?.map IssuedCommand.issuedAt
  settled : machine.measurement.pending = false →
    ∀ issued ∈ commandsOf past, (answer? past issued).isSome = true
  open_ : machine.measurement.pending = true →
    ∃ earlier last, commandsOf past = earlier ++ [last] ∧
      (∀ issued ∈ earlier, (answer? past issued).isSome = true) ∧
      answer? past last = none
  lastRoundTrip : machine.measurement.lastRoundTrip =
    (roundTripsOf past).getLast?.getD 0.0
  stats : machine.stats = Aggregate.empty.recordAll (roundTripsOf past)

theorem start_follows (transport : Transport) (listening : Bool) :
    (start transport listening).Follows [] where
  consistent := start_consistent transport listening
  going := by simp [start]
  met := by simp [start]
  sends := rfl
  issuedAt := rfl
  settled := by
    intro _ issued member
    cases member
  open_ := by simp [start]
  lastRoundTrip := rfl
  stats := rfl

/-! ### Steps that leave the record as it is -/

theorem commandsOf_quiet (past : List Step) (step : Step)
    (quiet : step.press? = none) :
    commandsOf (past ++ [step]) = commandsOf past := by
  rw [commandsOf_append, quiet]

theorem answer?_keeps {past : List Step} {issued : IssuedCommand}
    {receivedAt : Instant} (step : Step)
    (inside : issued.position < past.length)
    (found : answer? past issued = some receivedAt) :
    answer? (past ++ [step]) issued = some receivedAt := by
  rw [answer?_append past step issued inside, found]
  rfl

theorem roundTripsOf_same {past : List Step} {step : Step}
    (commands : commandsOf (past ++ [step]) = commandsOf past)
    (answers : ∀ issued ∈ commandsOf past,
      answer? (past ++ [step]) issued = answer? past issued) :
    roundTripsOf (past ++ [step]) = roundTripsOf past := by
  unfold roundTripsOf
  rw [commands]
  apply List.filterMap_congr
  intro issued member
  rw [answers issued member]

/-- A step that answers nothing new, because it is no message or because every
command is answered already, leaves the answers as they are. -/
theorem answer?_same (past : List Step) (step : Step)
    (nothing : step.arrival? = none ∨
      ∀ issued ∈ commandsOf past, (answer? past issued).isSome = true) :
    ∀ issued ∈ commandsOf past,
      answer? (past ++ [step]) issued = answer? past issued := by
  intro issued member
  rw [answer?_append past step issued (commandsOf_position member)]
  rcases nothing with silent | settled
  · rw [silent]
    exact Option.or_none
  · obtain ⟨receivedAt, found⟩ :=
      Option.isSome_iff_exists.mp (settled issued member)
    rw [found]
    rfl

theorem Follows.unchanged {machine reached : Machine} {past : List Step}
    {step : Step} (follows : machine.Follows past)
    (consistent : reached.Consistent)
    (going : reached.phase ≠ .terminated)
    (met : reached.phase ≠ .awaitingConnection ↔
      (past ++ [step]).any Step.establishes = true)
    (measurement : reached.measurement = machine.measurement)
    (sends : reached.sends = machine.sends)
    (stats : reached.stats = machine.stats)
    (commands : commandsOf (past ++ [step]) = commandsOf past)
    (nothing : step.arrival? = none ∨
      ∀ issued ∈ commandsOf past, (answer? past issued).isSome = true) :
    reached.Follows (past ++ [step]) := by
  have answers := answer?_same past step nothing
  have roundTrips := roundTripsOf_same commands answers
  refine
    { consistent := consistent
      going := going
      met := met
      sends := by rw [sends, commands, follows.sends]
      issuedAt := by rw [measurement, commands, follows.issuedAt]
      settled := ?_
      open_ := ?_
      lastRoundTrip := by rw [measurement, roundTrips, follows.lastRoundTrip]
      stats := by rw [stats, roundTrips, follows.stats] }
  · intro idle issued member
    rw [measurement] at idle
    rw [commands] at member
    rw [answers issued member]
    exact follows.settled idle issued member
  · intro pending
    rw [measurement] at pending
    obtain ⟨earlier, last, split, answered, unanswered⟩ :=
      follows.open_ pending
    refine ⟨earlier, last, by rw [commands, split], ?_, ?_⟩
    · intro issued member
      have present : issued ∈ commandsOf past := by
        rw [split]
        exact List.mem_append_left _ member
      rw [answers issued present]
      exact answered issued member
    · have present : last ∈ commandsOf past := by
        rw [split]
        exact List.mem_append_right _ List.mem_cons_self
      rw [answers last present]
      exact unanswered

/-! ### The transitions -/

theorem Follows.adopt {machine : Machine} {past : List Step}
    (follows : machine.Follows past) (connection : Connection)
    (waiting : machine.phase = .awaitingConnection) :
    (machine.adopted connection).Follows
      (past ++ [.event (.established connection)]) := by
  apply follows.unchanged
    (adopted_consistent connection follows.consistent waiting)
    (by simp [adopted]) _ rfl rfl rfl (commandsOf_quiet past _ rfl) (.inl rfl)
  simp [adopted, Step.establishes]

theorem Follows.write {machine : Machine} {past : List Step}
    (follows : machine.Follows past) (length : Nat)
    (sending : machine.phase = .sending) :
    machine.written.Follows (past ++ [.event (.sent length)]) := by
  apply follows.unchanged (written_consistent follows.consistent sending)
    (by simp [written]) _ rfl rfl rfl (commandsOf_quiet past _ rfl) (.inl rfl)
  have met := follows.met
  rw [sending] at met
  simpa [written, Step.establishes] using met

/-- An accepted press begins a measurement. -/
theorem Follows.issue {machine : Machine} {past : List Step}
    (follows : machine.Follows past) (now : Instant)
    (connected : machine.phase.isConnected = true)
    (idle : machine.measurement.pending = false)
    (held : machine.connection.isSome = true) :
    (machine.issued now).Follows (past ++ [.intent .sendCommand now]) := by
  have elsewhere : machine.phase ≠ .awaitingConnection := by
    intro waiting
    rw [waiting] at connected
    cases connected
  have met := follows.met.mp elsewhere
  have settled := follows.settled idle
  have accepted : accepts past (commandsOf past) = true := by
    unfold accepts
    rw [met, Bool.true_and, List.all_eq_true]
    exact settled
  have commands : commandsOf (past ++ [.intent .sendCommand now]) =
      commandsOf past ++
        [{ position := past.length
           issuedAt := now }] := by
    rw [commandsOf_append]
    simp only [Step.press?, accepted, if_true]
  have answers :=
    answer?_same past (.intent .sendCommand now) (.inl rfl)
  have roundTrips : roundTripsOf (past ++ [.intent .sendCommand now]) =
      roundTripsOf past := by
    unfold roundTripsOf
    rw [commands, List.filterMap_append]
    simp only [List.filterMap_cons, answer?_last, Option.map_none,
      List.filterMap_nil, List.append_nil]
    apply List.filterMap_congr
    intro issued member
    rw [answers issued member]
  refine
    { consistent :=
        issued_consistent now follows.consistent connected held
      going := by simp [issued]
      met := by simp [issued, met]
      sends := by simp [issued, commands, follows.sends]
      issuedAt := by simp [issued, commands]
      settled := by simp [issued]
      open_ := ?_
      lastRoundTrip := by rw [roundTrips]; exact follows.lastRoundTrip
      stats := by rw [roundTrips]; exact follows.stats }
  intro _
  refine ⟨commandsOf past, _, commands, ?_, answer?_last past _ now⟩
  intro issued member
  rw [answers issued member]
  exact settled issued member

/-- The first message behind the open command ends its measurement. -/
theorem Follows.answer {machine : Machine} {past : List Step}
    (follows : machine.Follows past) (payload : Payload)
    (issuedAt receivedAt : Instant)
    (pending : machine.measurement.pending = true)
    (stamped : machine.measurement.issuedAt = some issuedAt) :
    (machine.answered issuedAt receivedAt).Follows
      (past ++ [.event (.received payload receivedAt)]) := by
  -- Every command but the last is answered, so the message answers the last
  -- one and changes nothing for the others.
  obtain ⟨earlier, last, split, answered, unanswered⟩ :=
    follows.open_ pending
  have commands :=
    commandsOf_quiet past (.event (.received payload receivedAt)) rfl
  have inside (issued : IssuedCommand) (member : issued ∈ commandsOf past) :=
    commandsOf_position member
  have early (issued : IssuedCommand) (member : issued ∈ earlier) :
      issued ∈ commandsOf past := by
    rw [split]
    exact List.mem_append_left _ member
  have latest : last ∈ commandsOf past := by
    rw [split]
    exact List.mem_append_right _ List.mem_cons_self
  have lastAnswer :
      answer? (past ++ [.event (.received payload receivedAt)]) last =
        some receivedAt := by
    rw [answer?_append past _ last (inside last latest), unanswered]
    rfl
  have lastStamp : last.issuedAt = issuedAt := by
    have stamp := follows.issuedAt
    rw [split, stamped] at stamp
    simpa using stamp.symm
  have kept :
      ∀ issued ∈ earlier,
        answer? (past ++ [.event (.received payload receivedAt)]) issued =
          answer? past issued := by
    intro issued member
    obtain ⟨arrival, found⟩ :=
      Option.isSome_iff_exists.mp (answered issued member)
    rw [answer?_keeps _ (inside issued (early issued member)) found, found]
  have roundTrips :
      roundTripsOf (past ++ [.event (.received payload receivedAt)]) =
        roundTripsOf past ++ [roundTrip issuedAt receivedAt] := by
    unfold roundTripsOf
    rw [commands, split, List.filterMap_append, List.filterMap_append]
    simp only [List.filterMap_cons, List.filterMap_nil, lastAnswer,
      unanswered, Option.map_some, Option.map_none, List.append_nil]
    rw [lastStamp]
    congr 1
    apply List.filterMap_congr
    intro issued member
    rw [kept issued member]
  refine
    { consistent :=
        answered_consistent issuedAt receivedAt follows.consistent pending
      going := by simp [Machine.answered]
      met := ?_
      sends := by rw [commands]; exact follows.sends
      issuedAt := by rw [commands]; exact follows.issuedAt
      settled := ?_
      open_ := by simp [Machine.answered]
      lastRoundTrip := by simp [Machine.answered, roundTrips]
      stats := ?_ }
  · have elsewhere : machine.phase ≠ .awaitingConnection := by
      rcases follows.consistent.outstanding.mp pending with phase | phase
      · rw [phase]; decide
      · rw [phase]; decide
    simp [Machine.answered, follows.met.mp elsewhere]
  · intro _ issued member
    rw [commands, split, List.mem_append, List.mem_singleton] at member
    rcases member with present | isLast
    · rw [kept issued present]
      exact answered issued present
    · rw [isLast, lastAnswer]
      rfl
  · rw [roundTrips]
    unfold Aggregate.recordAll
    rw [List.foldl_append]
    change machine.stats.record (roundTrip issuedAt receivedAt) =
      (Aggregate.empty.recordAll (roundTripsOf past)).record _
    rw [follows.stats]

/-- A press that a machine ignores is not accepted: without a peer none was
met, and an outstanding command is not settled. -/
theorem Follows.refuses {machine : Machine} {past : List Step}
    (follows : machine.Follows past) (now : Instant)
    (ignores : machine.Ignores (.intent .sendCommand now)) :
    accepts past (commandsOf past) = false := by
  cases accepted : accepts past (commandsOf past) with
  | false => rfl
  | true =>
      exfalso
      unfold accepts at accepted
      rw [Bool.and_eq_true, List.all_eq_true] at accepted
      obtain ⟨met, settled⟩ := accepted
      have elsewhere := follows.met.mpr met
      have phase : machine.phase = .connected ∨ machine.phase = .sending ∨
          machine.phase = .awaitingAck := by
        have going := follows.going
        cases here : machine.phase <;> simp [here] at *
      rcases ignores with apart | pending | missing
      · rcases phase with here | here | here <;>
          rw [here] at apart <;> cases apart
      · obtain ⟨earlier, last, split, _, unanswered⟩ :=
          follows.open_ pending
        have known := settled last (by rw [split]; simp)
        rw [unanswered] at known
        cases known
      · have held := follows.consistent.held.mpr phase
        rw [missing] at held
        cases held

theorem Follows.ignore {machine : Machine} {past : List Step}
    (follows : machine.Follows past) (step : Step)
    (ignores : machine.Ignores step)
    (lasts : step.ending? past = none) :
    machine.Follows (past ++ [step]) := by
  have still (quiet : step.establishes = false) :
      machine.phase ≠ .awaitingConnection ↔
        (past ++ [step]).any Step.establishes = true := by
    rw [List.any_append]
    simpa [quiet] using follows.met
  cases step with
  | intent intent now =>
      cases intent with
      | sendCommand =>
          apply follows.unchanged follows.consistent follows.going
            (still rfl) rfl rfl rfl _ (.inl rfl)
          have refused := follows.refuses now ignores
          rw [commandsOf_append]
          simp only [Step.press?, refused, Bool.false_eq_true, if_false]
  | event event =>
      cases event with
      | established connection =>
          apply follows.unchanged follows.consistent follows.going _ rfl rfl
            rfl (commandsOf_quiet past _ rfl) (.inl rfl)
          have elsewhere : machine.phase ≠ .awaitingConnection := by
            rcases ignores with elsewhere | held
            · exact elsewhere
            · intro waiting
              exact held (follows.consistent.free waiting)
          simp [elsewhere, Step.establishes]
      | received payload receivedAt =>
          apply follows.unchanged follows.consistent follows.going
            (still rfl) rfl rfl rfl (commandsOf_quiet past _ rfl)
          right
          apply follows.settled
          exact follows.consistent.idle_of_ignored ignores
      | sent length =>
          exact follows.unchanged follows.consistent follows.going
            (still rfl) rfl rfl rfl (commandsOf_quiet past _ rfl) (.inl rfl)
      | cancelled =>
          exact follows.unchanged follows.consistent follows.going
            (still rfl) rfl rfl rfl (commandsOf_quiet past _ rfl) (.inl rfl)
      | failed fault => cases lasts
  | shutdown reason => cases lasts

/-! ### Runs -/

/-- The step lemma: a step that does not end the session is followed. -/
theorem Follows.after {machine : Machine} {past : List Step}
    (follows : machine.Follows past) (step : Step)
    (lasts : step.ending? past = none) :
    (machine.after step).Follows (past ++ [step]) := by
  obtain ⟨reached, calls, next, taken⟩ := machine.exists_transition step
  rw [next]
  cases taken with
  | adopt connection waiting _ => exact follows.adopt connection waiting
  | issue now connection connected idle held =>
      exact follows.issue now connected idle (by rw [held]; rfl)
  | write length sending => exact follows.write length sending
  | answer payload issuedAt receivedAt _ pending stamped =>
      exact follows.answer payload issuedAt receivedAt pending stamped
  | cancel waiting =>
      have unmet : past.any Step.establishes = false := by
        cases met : past.any Step.establishes with
        | false => rfl
        | true => exact absurd waiting (follows.met.mpr met)
      simp [Step.ending?, unmet] at lasts
  | fail fault _ => cases lasts
  | shut reason _ => cases lasts
  | ignore step ignores => exact follows.ignore step ignores lasts

/-- A step that ends the session is the end of the machine too, and leaves
what it has measured as it is. -/
theorem Follows.after_ending {machine : Machine} {past : List Step}
    (follows : machine.Follows past) {step : Step} {reason : Termination}
    (ends : step.ending? past = some reason) :
    machine.after step = machine.ended reason := by
  obtain ⟨reached, calls, next, taken⟩ := machine.exists_transition step
  rw [next]
  cases taken with
  | adopt _ _ _ => cases ends
  | issue _ _ _ _ _ => cases ends
  | write _ _ => cases ends
  | answer _ _ _ _ _ _ => cases ends
  | cancel waiting =>
      simp only [Step.ending?] at ends
      split at ends
      · cases ends
      · cases ends
        rfl
  | fail fault _ =>
      cases ends
      rfl
  | shut reason _ =>
      cases ends
      rfl
  | ignore step ignores =>
      exfalso
      cases step with
      | intent _ _ => cases ends
      | event event =>
          cases event with
          | established _ => cases ends
          | received _ _ => cases ends
          | sent _ => cases ends
          | cancelled =>
              have met := follows.met.mp ignores
              simp [Step.ending?, met] at ends
          | failed _ => exact follows.going ignores
      | shutdown _ => exact follows.going ignores

/-- The run lemma: whatever the session still brings, the measurements of the
machine are those of the steps before its end. -/
theorem Follows.run {machine : Machine} {past : List Step}
    (follows : machine.Follows past) (steps : List Step) :
    ∃ last : Machine, last.Follows (past ++ lastingAfter past steps) ∧
      (machine.run steps).sends = last.sends ∧
      (machine.run steps).measurement.issuedAt =
        last.measurement.issuedAt ∧
      (machine.run steps).measurement.lastRoundTrip =
        last.measurement.lastRoundTrip ∧
      (machine.run steps).stats = last.stats := by
  induction steps generalizing machine past with
  | nil =>
      refine ⟨machine, ?_, rfl, rfl, rfl, rfl⟩
      rw [lastingAfter, List.append_nil]
      exact follows
  | cons step rest inductionHypothesis =>
      cases ends : step.ending? past with
      | some reason =>
          -- The rest of the run finds a machine that has ended.
          rw [run_cons, follows.after_ending ends,
            run_of_terminated (machine.ended reason) rest rfl]
          refine ⟨machine, ?_, rfl, rfl, rfl, rfl⟩
          simp only [lastingAfter, ends, List.append_nil]
          exact follows
      | none =>
          obtain ⟨last, followed, same⟩ :=
            inductionHypothesis (follows.after step ends)
          refine ⟨last, ?_, same⟩
          simp only [lastingAfter, ends]
          rw [List.append_assoc] at followed
          exact followed

end LatencyBench.Machine

/-
What one step can do to a machine.

A step either takes one of seven transitions, each with the condition under
which it is taken, or is ignored.  Everything that is later said about runs of
the machine rests on this one case distinction; no other proof opens the
machine's definitions.
-/

import LatencyBench.Machine

namespace LatencyBench.Machine

/-! ### The transitions -/

def adopted (machine : Machine) (connection : Connection) : Machine :=
  { machine with
    listening := false
    connection := some connection
    phase := .connected }

def issued (machine : Machine) (now : Instant) : Machine :=
  { machine with
    measurement :=
      { machine.measurement with
        pending := true
        issuedAt := some now }
    sends := machine.sends + 1
    phase := .sending }

def written (machine : Machine) : Machine :=
  { machine with phase := .awaitingAck }

def answered (machine : Machine) (issuedAt receivedAt : Instant) : Machine :=
  { machine with
    measurement :=
      { machine.measurement with
        pending := false
        lastRoundTrip := roundTrip issuedAt receivedAt }
    stats := machine.stats.record (roundTrip issuedAt receivedAt)
    phase := .connected }

def ended (machine : Machine) (reason : Termination) : Machine :=
  { machine with
    listening := false
    connection := none
    measurement := { machine.measurement with pending := false }
    phase := .terminated
    termination := some reason }

def callsOnHeld (machine : Machine) (calls : List Call) :
    List ConnectionCall :=
  match machine.connection with
  | none => []
  | some connection => calls.map connection.does

/-- Whether a step changes nothing. -/
def Ignores (machine : Machine) : Step → Prop
  | .intent .sendCommand _ =>
      machine.phase.isConnected = false ∨ machine.measurement.pending = true ∨
        machine.connection = none
  | .event (.established _) =>
      machine.phase ≠ .awaitingConnection ∨ machine.connection ≠ none
  | .event (.received _ _) =>
      machine.phase = .terminated ∨ machine.measurement.pending = false ∨
        machine.measurement.issuedAt = none
  | .event (.sent _) => machine.phase ≠ .sending
  | .event .cancelled => machine.phase ≠ .awaitingConnection
  | .event (.failed _) => machine.phase = .terminated
  | .shutdown _ => machine.phase = .terminated

/-- The calls that an ignored step makes: a connection that is not wanted is
closed and let go, after the end only let go. -/
def refusal (machine : Machine) : Step → List ConnectionCall
  | .event (.established connection) =>
      if machine.phase = .terminated then [connection.does .drop]
      else [connection.does .close, connection.does .drop]
  | _ => []

/-- What a step does to a machine, and the calls it makes. -/
inductive Transition (machine : Machine) :
    Step → Machine → List ConnectionCall → Prop where
  | adopt (connection : Connection)
      (waiting : machine.phase = .awaitingConnection)
      (free : machine.connection = none) :
      Transition machine (.event (.established connection))
        (machine.adopted connection) [connection.does .arm]
  | issue (now : Instant) (connection : Connection)
      (connected : machine.phase.isConnected = true)
      (idle : machine.measurement.pending = false)
      (held : machine.connection = some connection) :
      Transition machine (.intent .sendCommand now) (machine.issued now)
        [connection.does (.send command)]
  | write (length : Nat) (sending : machine.phase = .sending) :
      Transition machine (.event (.sent length)) machine.written []
  | answer (payload : Payload) (issuedAt receivedAt : Instant)
      (going : machine.phase ≠ .terminated)
      (pending : machine.measurement.pending = true)
      (stamped : machine.measurement.issuedAt = some issuedAt) :
      Transition machine (.event (.received payload receivedAt))
        (machine.answered issuedAt receivedAt) (machine.callsOnHeld [.arm])
  | cancel (waiting : machine.phase = .awaitingConnection) :
      Transition machine (.event .cancelled) (machine.ended .cancelled)
        (machine.callsOnHeld [.close, .drop])
  | fail (fault : Fault) (going : machine.phase ≠ .terminated) :
      Transition machine (.event (.failed fault))
        (machine.ended (.fault fault)) (machine.callsOnHeld [.close, .drop])
  | shut (reason : Termination) (going : machine.phase ≠ .terminated) :
      Transition machine (.shutdown reason) (machine.ended reason)
        (machine.callsOnHeld [.close, .drop])
  | ignore (step : Step) (ignores : machine.Ignores step) :
      Transition machine step machine (machine.refusal step)

/-! ### Every step takes one -/

theorem terminate_calls (machine : Machine) (reason : Termination) :
    (machine.terminate reason).calls =
      machine.callsOnHeld [.close, .drop] := by
  unfold terminate callsOnHeld
  cases machine.connection <;> rfl

theorem transition_intent (machine : Machine) (now : Instant) :
    Transition machine (.intent .sendCommand now)
      (machine.sendCommand now).machine (machine.sendCommand now).calls := by
  unfold sendCommand
  cases connected : machine.phase.isConnected with
  | false => exact .ignore (.intent .sendCommand now) (.inl connected)
  | true =>
      cases pending : machine.measurement.pending with
      | true =>
          exact .ignore (.intent .sendCommand now) (.inr (.inl pending))
      | false =>
          cases held : machine.connection with
          | none =>
              exact .ignore (.intent .sendCommand now) (.inr (.inr held))
          | some connection =>
              have taken :=
                Transition.issue now connection connected pending held
              unfold issued at taken
              rw [held] at taken
              exact taken

theorem transition_established (machine : Machine) (connection : Connection)
    (going : machine.phase ≠ .terminated) :
    Transition machine (.event (.established connection))
      (machine.adopt connection).machine (machine.adopt connection).calls := by
  unfold adopt
  by_cases refused :
      machine.phase ≠ .awaitingConnection ∨ machine.connection.isSome
  · rw [if_pos refused]
    have ignores : machine.Ignores (.event (.established connection)) := by
      rcases refused with elsewhere | held
      · exact .inl elsewhere
      · exact .inr (Option.isSome_iff_ne_none.mp held)
    have calls : machine.refusal (.event (.established connection)) =
        [connection.does .close, connection.does .drop] := if_neg going
    rw [← calls]
    exact .ignore _ ignores
  · rw [if_neg refused]
    have waiting : machine.phase = .awaitingConnection :=
      Decidable.not_not.mp fun elsewhere => refused (.inl elsewhere)
    have free : machine.connection = none := by
      cases held : machine.connection with
      | none => rfl
      | some _ => exact absurd (.inr (by rw [held]; rfl)) refused
    exact .adopt connection waiting free

theorem transition_received (machine : Machine) (payload : Payload)
    (receivedAt : Instant) (going : machine.phase ≠ .terminated) :
    Transition machine (.event (.received payload receivedAt))
      (machine.acknowledge payload receivedAt).machine
      (machine.acknowledge payload receivedAt).calls := by
  unfold acknowledge
  cases pending : machine.measurement.pending with
  | false =>
      exact .ignore (.event (.received payload receivedAt))
        (.inr (.inl pending))
  | true =>
      cases stamped : machine.measurement.issuedAt with
      | none =>
          exact .ignore (.event (.received payload receivedAt))
            (.inr (.inr stamped))
      | some issuedAt =>
          have taken := Transition.answer payload issuedAt receivedAt going
            pending stamped
          unfold answered callsOnHeld at taken
          cases held : machine.connection <;> rw [held] at taken <;>
            exact taken

theorem transition_sent (machine : Machine) (length : Nat) :
    Transition machine (.event (.sent length))
      (machine.noteSent length).machine (machine.noteSent length).calls := by
  unfold noteSent
  by_cases sending : machine.phase = .sending
  · rw [if_pos sending]
    exact .write length sending
  · rw [if_neg sending]
    exact .ignore (.event (.sent length)) sending

theorem transition_cancelled (machine : Machine) :
    Transition machine (.event .cancelled) machine.noteCancelled.machine
      machine.noteCancelled.calls := by
  unfold noteCancelled
  by_cases waiting : machine.phase = .awaitingConnection
  · rw [if_pos waiting]
    unfold afterLogging
    rw [terminate_calls]
    exact .cancel waiting
  · rw [if_neg waiting]
    exact .ignore (.event .cancelled) waiting

theorem transition_failed (machine : Machine) (fault : Fault)
    (going : machine.phase ≠ .terminated) :
    Transition machine (.event (.failed fault))
      (machine.noteFault fault).machine (machine.noteFault fault).calls := by
  unfold noteFault afterLogging
  rw [terminate_calls]
  exact .fail fault going

theorem transition_after_end (machine : Machine) (event : Event)
    (finished : machine.phase = .terminated) :
    Transition machine (.event event) (machine.ignoreEvent event).machine
      (machine.ignoreEvent event).calls := by
  have waits : machine.phase ≠ .awaitingConnection := by rw [finished]; decide
  cases event with
  | established connection =>
      have calls : machine.refusal (.event (.established connection)) =
          [connection.does .drop] := if_pos finished
      have ignored : Transition machine (.event (.established connection))
          machine (machine.refusal (.event (.established connection))) :=
        .ignore _ (.inl waits)
      rw [calls] at ignored
      exact ignored
  | received payload receivedAt =>
      exact .ignore (.event (.received payload receivedAt)) (.inl finished)
  | sent length =>
      have idle : machine.phase ≠ .sending := by rw [finished]; decide
      exact .ignore (.event (.sent length)) idle
  | cancelled => exact .ignore (.event .cancelled) waits
  | failed fault => exact .ignore (.event (.failed fault)) finished

/-- Every step takes one of the seven transitions or is ignored. -/
theorem transition (machine : Machine) (step : Step) :
    Transition machine step (machine.after step)
      (machine.react step).calls := by
  cases step with
  | intent intent now =>
      cases intent with
      | sendCommand => exact transition_intent machine now
  | event event =>
      change Transition machine (.event event)
        (machine.applyEvent event).machine (machine.applyEvent event).calls
      unfold applyEvent
      by_cases finished : machine.phase = .terminated
      · rw [if_pos finished]
        exact transition_after_end machine event finished
      · rw [if_neg finished]
        cases event with
        | established connection =>
            exact transition_established machine connection finished
        | received payload receivedAt =>
            exact transition_received machine payload receivedAt finished
        | sent length => exact transition_sent machine length
        | cancelled => exact transition_cancelled machine
        | failed fault => exact transition_failed machine fault finished
  | shutdown reason =>
      change Transition machine (.shutdown reason)
        (machine.shutdown reason).machine (machine.shutdown reason).calls
      unfold shutdown
      by_cases finished : machine.phase = .terminated
      · rw [if_pos finished]
        exact .ignore (.shutdown reason) finished
      · rw [if_neg finished, terminate_calls]
        exact .shut reason finished

theorem exists_transition (machine : Machine) (step : Step) :
    ∃ reached calls, machine.after step = reached ∧
      Transition machine step reached calls :=
  ⟨machine.after step, (machine.react step).calls, rfl,
    transition machine step⟩

theorem exists_reaction (machine : Machine) (step : Step) :
    ∃ reached calls, machine.after step = reached ∧
      (machine.react step).calls = calls ∧
      Transition machine step reached calls :=
  ⟨machine.after step, (machine.react step).calls, rfl, rfl,
    transition machine step⟩

/-! ### The calls of a step -/

theorem mem_callsOnHeld {machine : Machine} {calls : List Call}
    {made : ConnectionCall} :
    made ∈ machine.callsOnHeld calls ↔
      machine.connection = some made.connection ∧ made.call ∈ calls := by
  unfold callsOnHeld
  cases machine.connection with
  | none => simp
  | some connection =>
      rw [List.mem_map, Option.some.injEq]
      constructor
      · rintro ⟨call, among, rfl⟩
        exact ⟨rfl, among⟩
      · rintro ⟨rfl, among⟩
        exact ⟨made.call, among, rfl⟩

theorem refusal_parts {machine : Machine} {step : Step}
    {made : ConnectionCall} (member : made ∈ machine.refusal step) :
    step = .event (.established made.connection) ∧
      made.call ∈ [Call.close, Call.drop] := by
  unfold refusal at member
  split at member
  · split at member
    · cases List.mem_singleton.mp member
      exact ⟨rfl, List.mem_cons_of_mem _ List.mem_cons_self⟩
    · rcases List.mem_cons.mp member with first | second
      · cases first
        exact ⟨rfl, List.mem_cons_self⟩
      · cases List.mem_singleton.mp second
        exact ⟨rfl, List.mem_cons_of_mem _ List.mem_cons_self⟩
  · cases member

theorem Transition.call_on {machine reached : Machine} {step : Step}
    {calls : List ConnectionCall}
    (taken : machine.Transition step reached calls)
    {made : ConnectionCall} (member : made ∈ calls) :
    machine.connection = some made.connection ∨
      step = .event (.established made.connection) := by
  cases taken with
  | adopt connection _ _ =>
      cases List.mem_singleton.mp member
      exact .inr rfl
  | issue _ connection _ _ held =>
      cases List.mem_singleton.mp member
      exact .inl held
  | write _ _ => cases member
  | answer _ _ _ _ _ _ => exact .inl (mem_callsOnHeld.mp member).1
  | cancel _ => exact .inl (mem_callsOnHeld.mp member).1
  | fail _ _ => exact .inl (mem_callsOnHeld.mp member).1
  | shut _ _ => exact .inl (mem_callsOnHeld.mp member).1
  | ignore _ _ => exact .inr (refusal_parts member).1

/-! ### Runs -/

@[simp] theorem run_nil (machine : Machine) : machine.run [] = machine := rfl

@[simp] theorem run_cons (machine : Machine) (step : Step)
    (rest : List Step) :
    machine.run (step :: rest) = (machine.after step).run rest := rfl

theorem run_append (machine : Machine) (first later : List Step) :
    machine.run (first ++ later) = (machine.run first).run later :=
  List.foldl_append

@[simp] theorem callsOf_nil (machine : Machine) : machine.callsOf [] = [] :=
  rfl

theorem callsOf_cons (machine : Machine) (step : Step) (rest : List Step) :
    machine.callsOf (step :: rest) =
      (machine.react step).calls ++ (machine.after step).callsOf rest := by
  simp only [callsOf, reactions, List.flatMap_cons]
  rfl

theorem callsOf_append (machine : Machine) (first later : List Step) :
    machine.callsOf (first ++ later) =
      machine.callsOf first ++ (machine.run first).callsOf later := by
  induction first generalizing machine with
  | nil => rfl
  | cons step rest inductionHypothesis =>
      rw [List.cons_append, callsOf_cons, callsOf_cons, run_cons,
        inductionHypothesis, List.append_assoc]

/-- What holds of a machine and is kept by every step holds after any run. -/
theorem run_keeps (kept : Machine → Prop)
    (keeps : ∀ machine step, kept machine → kept (machine.after step))
    (machine : Machine) (holds : kept machine) (steps : List Step) :
    kept (machine.run steps) := by
  induction steps generalizing machine with
  | nil => exact holds
  | cons step rest inductionHypothesis =>
      exact inductionHypothesis (machine.after step) (keeps machine step holds)

theorem after_of_terminated (machine : Machine) (step : Step)
    (finished : machine.phase = .terminated) : machine.after step = machine := by
  obtain ⟨reached, calls, next, taken⟩ := machine.exists_transition step
  rw [next]
  cases taken with
  | adopt _ waiting _ => rw [finished] at waiting; cases waiting
  | issue _ _ connected _ _ => rw [finished] at connected; cases connected
  | write _ sending => rw [finished] at sending; cases sending
  | answer _ _ _ going _ _ => exact absurd finished going
  | cancel waiting => rw [finished] at waiting; cases waiting
  | fail _ going => exact absurd finished going
  | shut _ going => exact absurd finished going
  | ignore _ _ => rfl

theorem run_of_terminated (machine : Machine) (steps : List Step)
    (finished : machine.phase = .terminated) : machine.run steps = machine := by
  induction steps with
  | nil => rfl
  | cons step rest inductionHypothesis =>
      rw [run_cons, after_of_terminated machine step finished]
      exact inductionHypothesis

end LatencyBench.Machine

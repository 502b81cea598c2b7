/-
What becomes of each connection that is delivered.

The connection that a machine takes over is armed, carries commands one at a
time, is closed if the session ends, and is let go once.  Every other one is
gone within the step that delivers it: closed and let go while a peer is
connected, only let go after the end.

A connection is a value with one owner and is delivered once.  A list of steps
that delivered one value twice would call two connections by one name, so such
lists are left out.
-/

import LatencyBench.Proofs.Machine.Conservation
import Mathlib.Data.List.Basic
import Mathlib.Data.List.Nodup

namespace LatencyBench.Machine

/-- The calls made on one connection, in order. -/
def callsOn (connection : Connection) (made : List ConnectionCall) :
    List Call :=
  (made.filter fun one => one.connection = connection).map
    ConnectionCall.call

def deliveries (steps : List Step) : List Connection :=
  steps.filterMap Step.delivered?

def lifetimeCalls (machine : Machine) (steps : List Step) :
    List ConnectionCall :=
  machine.callsOf steps ++ (machine.run steps).release

/-- What a connection carries: it is armed, and armed again after each command
that is answered; one more command may be out. -/
def carriedCalls (answered : Nat) (unanswered : Bool) : List Call :=
  .arm :: (List.replicate answered [.send command, .arm]).flatten ++
    if unanswered then [.send command] else []

def partingCalls (closed : Bool) : List Call :=
  if closed then [.close, .drop] else [.drop]

/-- What can be said of the calls on any connection. -/
structure Disciplined (calls : List Call) : Prop where
  dropped : calls.count .drop = 1
  closed : calls.count .close ≤ 1
  parting : ∀ before after, calls = before ++ .close :: after →
    after = [.drop]
  payload : ∀ payload, .send payload ∈ calls → payload = command

variable {machine reached : Machine} {step : Step}
  {calls : List ConnectionCall} {connection : Connection}

/-! ### Lists of calls -/

theorem callsOn_append (connection : Connection)
    (first later : List ConnectionCall) :
    callsOn connection (first ++ later) =
      callsOn connection first ++ callsOn connection later := by
  rw [callsOn, List.filter_append, List.map_append]
  rfl

theorem callsOn_does (connection : Connection) (calls : List Call) :
    callsOn connection (calls.map connection.does) = calls := by
  induction calls with
  | nil => rfl
  | cons call rest inductionHypothesis =>
      rw [List.map_cons, callsOn, List.filter_cons_of_pos (by simp
        [Connection.does]), List.map_cons]
      exact congrArg (call :: ·) inductionHypothesis

theorem callsOn_others {made : List ConnectionCall}
    (others : ∀ one ∈ made, one.connection ≠ connection) :
    callsOn connection made = [] := by
  rw [callsOn, List.filter_eq_nil_iff.mpr, List.map_nil]
  intro one member same
  exact others one member (of_decide_eq_true same)

theorem mem_callsOn {made : List ConnectionCall} {one : ConnectionCall}
    (member : one ∈ made) : one.call ∈ callsOn one.connection made :=
  List.mem_map.mpr
    ⟨one, List.mem_filter.mpr ⟨member, decide_eq_true rfl⟩, rfl⟩

theorem carriedCalls_send (answered : Nat) :
    carriedCalls answered false ++ [.send command] =
      carriedCalls answered true := by
  simp [carriedCalls]

theorem carriedCalls_arm (answered : Nat) :
    carriedCalls answered true ++ [.arm] =
      carriedCalls (answered + 1) false := by
  simp [carriedCalls, List.replicate_succ']

theorem mem_carriedCalls {answered : Nat} {unanswered : Bool} {call : Call}
    (member : call ∈ carriedCalls answered unanswered) :
    call = .arm ∨ call = .send command := by
  unfold carriedCalls at member
  rcases List.mem_append.mp member with first | last
  · rcases List.mem_cons.mp first with arm | later
    · exact .inl arm
    · obtain ⟨round, among, inside⟩ := List.mem_flatten.mp later
      rw [List.eq_of_mem_replicate among] at inside
      rcases List.mem_cons.mp inside with send | arm
      · exact .inr send
      · exact .inl (List.mem_singleton.mp arm)
  · split at last
    · exact .inr (List.mem_singleton.mp last)
    · cases last

theorem mem_partingCalls {closed : Bool} {call : Call}
    (member : call ∈ partingCalls closed) : call = .close ∨ call = .drop := by
  unfold partingCalls at member
  split at member
  · simpa using member
  · exact .inr (List.mem_singleton.mp member)

theorem disciplined_of_parting {working : List Call} (closed : Bool)
    (works : ∀ call ∈ working, call = .arm ∨ call = .send command) :
    Disciplined (working ++ partingCalls closed) := by
  have undropped : Call.drop ∉ working := by
    intro member
    rcases works .drop member with arm | send
    · cases arm
    · cases send
  have unclosed : Call.close ∉ working := by
    intro member
    rcases works .close member with arm | send
    · cases arm
    · cases send
  refine
    { dropped := ?_
      closed := ?_
      parting := ?_
      payload := ?_ }
  · rw [List.count_append, List.count_eq_zero.mpr undropped]
    cases closed <;> rfl
  · rw [List.count_append, List.count_eq_zero.mpr unclosed]
    cases closed <;> decide
  · intro before after split
    cases closed with
    | true =>
        have places := (List.append_cons_inj_of_notMem unclosed
          (by decide : Call.close ∉ [Call.drop])).mp split
        exact places.2.2.symm
    | false =>
        have member : Call.close ∈ working ++ partingCalls false := by
          rw [split]
          exact List.mem_append_right _ List.mem_cons_self
        rcases List.mem_append.mp member with early | late
        · exact absurd early unclosed
        · cases List.mem_singleton.mp late
  · intro payload member
    rcases List.mem_append.mp member with carried | parting
    · rcases works _ carried with arm | send
      · cases arm
      · cases send
        rfl
    · rcases mem_partingCalls parting with close | drop
      · cases close
      · cases drop

/-! ### A connection that is not held -/

/-- Nothing is called on a connection that is neither held nor delivered. -/
theorem Transition.elsewhere (taken : machine.Transition step reached calls)
    (apart : machine.connection ≠ some connection)
    (other : step.delivered? ≠ some connection) :
    reached.connection ≠ some connection ∧ callsOn connection calls = [] := by
  have silent : callsOn connection calls = [] := by
    apply callsOn_others
    rintro one member rfl
    rcases taken.call_on member with held | rfl
    · exact apart held
    · exact other rfl
  refine ⟨?_, silent⟩
  cases taken with
  | adopt _ _ _ => exact other
  | issue _ _ _ _ _ => exact apart
  | write _ _ => exact apart
  | answer _ _ _ _ _ _ => exact apart
  | cancel _ => exact nofun
  | fail _ _ => exact nofun
  | shut _ _ => exact nofun
  | ignore _ _ => exact apart

theorem mem_deliveries_cons {rest : List Step} :
    connection ∈ deliveries (step :: rest) ↔
      step.delivered? = some connection ∨ connection ∈ deliveries rest := by
  unfold deliveries
  rw [List.filterMap_cons]
  cases step.delivered? with
  | none => simp
  | some delivered => simp [eq_comm]

theorem callsOf_elsewhere {steps : List Step}
    (apart : machine.connection ≠ some connection)
    (never : connection ∉ deliveries steps) :
    (machine.run steps).connection ≠ some connection ∧
      callsOn connection (machine.callsOf steps) = [] := by
  induction steps generalizing machine with
  | nil => exact ⟨apart, rfl⟩
  | cons step rest inductionHypothesis =>
      rw [mem_deliveries_cons, not_or] at never
      obtain ⟨apart, silent⟩ :=
        (machine.transition step).elsewhere apart never.1
      obtain ⟨last, quiet⟩ := inductionHypothesis apart never.2
      rw [run_cons, callsOf_cons, callsOn_append, silent, quiet]
      exact ⟨last, rfl⟩

theorem release_eq (machine : Machine) :
    machine.release = machine.callsOnHeld [.drop] := by
  unfold release callsOnHeld
  cases machine.connection <;> rfl

theorem lifetimeCalls_cons (machine : Machine) (step : Step)
    (rest : List Step) :
    machine.lifetimeCalls (step :: rest) =
      (machine.react step).calls ++
        (machine.after step).lifetimeCalls rest := by
  rw [lifetimeCalls, callsOf_cons, List.append_assoc]
  rfl

theorem lifetimeCalls_append (machine : Machine) (first later : List Step) :
    machine.lifetimeCalls (first ++ later) =
      machine.callsOf first ++ (machine.run first).lifetimeCalls later := by
  rw [lifetimeCalls, callsOf_append, run_append, List.append_assoc]
  rfl

theorem lifetimeCalls_elsewhere {steps : List Step}
    (apart : machine.connection ≠ some connection)
    (never : connection ∉ deliveries steps) :
    callsOn connection (machine.lifetimeCalls steps) = [] := by
  obtain ⟨last, silent⟩ := callsOf_elsewhere apart never
  rw [lifetimeCalls, callsOn_append, silent, List.nil_append]
  apply callsOn_others
  rintro one member rfl
  rw [release_eq] at member
  exact last (mem_callsOnHeld.mp member).1

/-! ### The connection that is held -/

/-- What a machine has made the connection carry, told by its counters. -/
def carried (machine : Machine) : List Call :=
  carriedCalls machine.stats.samples
    (machine.stats.samples < machine.sends)

theorem carried_of_even
    (even : machine.sends = machine.stats.samples) :
    machine.carried = carriedCalls machine.stats.samples false := by
  rw [carried, even, decide_eq_false (Nat.lt_irrefl _)]

theorem carried_of_ahead
    (ahead : machine.sends = machine.stats.samples + 1) :
    machine.carried = carriedCalls machine.stats.samples true := by
  rw [carried, ahead, decide_eq_true (Nat.lt_succ_self _)]

theorem callsOn_callsOnHeld (held : machine.connection = some connection)
    (calls : List Call) :
    callsOn connection (machine.callsOnHeld calls) = calls := by
  rw [callsOnHeld, held]
  exact callsOn_does connection calls

/-- A step makes the held connection carry what the counters tell, or gives it
up and ends the session. -/
theorem Transition.carries (taken : machine.Transition step reached calls)
    (balanced : machine.Balanced)
    (held : machine.connection = some connection)
    (other : step.delivered? ≠ some connection) :
    (reached.connection = some connection ∧
        reached.carried = machine.carried ++ callsOn connection calls) ∨
      (reached.phase = .terminated ∧ reached.connection = none ∧
        reached.carried = machine.carried ∧
        callsOn connection calls = partingCalls true) := by
  cases taken with
  | adopt _ _ free =>
      rw [held] at free
      cases free
  | issue now connection' connected idle held' =>
      rw [held] at held'
      cases held'
      -- Nothing was outstanding, so the new command is the one ahead.
      have even := balanced.going (going_of_connected connected)
      rw [outstanding_of_idle idle, Nat.add_zero] at even
      have ahead : (machine.issued now).sends =
          (machine.issued now).stats.samples + 1 := congrArg (· + 1) even
      have made : callsOn connection [connection.does (.send command)] =
          [.send command] := callsOn_does connection [.send command]
      left
      refine ⟨held, ?_⟩
      rw [carried_of_ahead ahead, carried_of_even even, made,
        carriedCalls_send]
      rfl
  | write _ _ =>
      left
      exact ⟨held, (List.append_nil _).symm⟩
  | answer payload issuedAt receivedAt going pending _ =>
      have ahead := balanced.going going
      rw [outstanding_of_pending pending] at ahead
      have samples := machine.answered_samples issuedAt receivedAt
      have even : (machine.answered issuedAt receivedAt).sends =
          (machine.answered issuedAt receivedAt).stats.samples := by
        rw [samples]
        exact ahead
      left
      refine ⟨held, ?_⟩
      rw [callsOn_callsOnHeld held, carried_of_even even,
        carried_of_ahead ahead, samples, carriedCalls_arm]
  | cancel _ => exact .inr ⟨rfl, rfl, rfl, callsOn_callsOnHeld held _⟩
  | fail _ _ => exact .inr ⟨rfl, rfl, rfl, callsOn_callsOnHeld held _⟩
  | shut _ _ => exact .inr ⟨rfl, rfl, rfl, callsOn_callsOnHeld held _⟩
  | ignore step _ =>
      left
      have silent : callsOn connection (machine.refusal step) = [] := by
        apply callsOn_others
        rintro one member rfl
        rw [(refusal_parts member).1] at other
        exact other rfl
      rw [silent]
      exact ⟨held, (List.append_nil _).symm⟩

theorem lifetimeCalls_held (consistent : machine.Consistent)
    (balanced : machine.Balanced)
    (held : machine.connection = some connection) {steps : List Step}
    (never : connection ∉ deliveries steps) :
    machine.carried ++ callsOn connection (machine.lifetimeCalls steps) =
      (machine.run steps).carried ++
        partingCalls ((machine.run steps).phase = .terminated) := by
  -- What was called so far is told by the counters, so the induction needs no
  -- record of the calls before it.
  induction steps generalizing machine with
  | nil =>
      have going := consistent.going_of_held held
      rw [lifetimeCalls, callsOf_nil, List.nil_append, run_nil, release_eq,
        callsOn_callsOnHeld held, decide_eq_false going]
      rfl
  | cons step rest inductionHypothesis =>
      rw [mem_deliveries_cons, not_or] at never
      rw [lifetimeCalls_cons, callsOn_append, run_cons, ← List.append_assoc]
      rcases (machine.transition step).carries balanced held never.1 with
        ⟨holds, carries⟩ | ⟨finished, free, same, parting⟩
      · rw [← carries]
        exact inductionHypothesis (after_consistent machine step consistent)
          ((machine.transition step).balanced balanced) holds never.2
      · -- The session is over, and the rest leaves the connection alone.
        have apart : (machine.after step).connection ≠ some connection := by
          rw [free]
          exact nofun
        rw [lifetimeCalls_elsewhere apart never.2, List.append_nil, parting,
          run_of_terminated _ _ finished, same, decide_eq_true finished]

/-! ### The step that delivers a connection -/

theorem refusal_established (machine : Machine) (connection : Connection) :
    machine.refusal (.event (.established connection)) =
      (partingCalls (machine.phase ≠ .terminated)).map connection.does := by
  unfold refusal partingCalls
  by_cases finished : machine.phase = .terminated
  · simp [finished]
  · simp [finished]

/-- A connection that is not taken over is gone within the step that delivers
it. -/
theorem callsOn_refused (left : machine.phase ≠ .awaitingConnection)
    (apart : machine.connection ≠ some connection) {later : List Step}
    (never : connection ∉ deliveries later) :
    (machine.react (.event (.established connection))).calls =
        (partingCalls (machine.phase ≠ .terminated)).map connection.does ∧
      callsOn connection (machine.lifetimeCalls
          (.event (.established connection) :: later)) =
        partingCalls (machine.phase ≠ .terminated) := by
  obtain ⟨same, calls⟩ := refuses left connection
  rw [refusal_established] at calls
  refine ⟨calls, ?_⟩
  rw [lifetimeCalls_cons, callsOn_append, calls, callsOn_does, same,
    lifetimeCalls_elsewhere apart never, List.append_nil]

theorem callsOn_adopted (consistent : machine.Consistent)
    (balanced : machine.Balanced)
    (waiting : machine.phase = .awaitingConnection) {later : List Step}
    (never : connection ∉ deliveries later) :
    callsOn connection (machine.lifetimeCalls
        (.event (.established connection) :: later)) =
      (machine.run (.event (.established connection) :: later)).carried ++
        partingCalls ((machine.run
          (.event (.established connection) :: later)).phase =
            .terminated) := by
  have taken := machine.transition (.event (.established connection))
  obtain ⟨next, calls⟩ := consistent.adopts waiting connection
  have onward := lifetimeCalls_held
    (after_consistent machine (.event (.established connection)) consistent)
    (taken.balanced balanced) (by rw [next]; rfl) never
  obtain ⟨sends, samples, _⟩ := consistent.fresh waiting
  have armed : (machine.after (.event (.established connection))).carried =
      callsOn connection [connection.does .arm] := by
    rw [next]
    change machine.carried = callsOn connection ([Call.arm].map _)
    rw [callsOn_does, carried_of_even (sends.trans samples.symm), samples]
    rfl
  rw [lifetimeCalls_cons, callsOn_append, calls, run_cons, ← armed]
  exact onward

/-! ### Whole runs -/

/-- How the connections of a run are handled, to the end of the machine. -/
structure Handles (origin : Machine) (steps : List Step) : Prop where
  adopted : ∀ before connection later,
    steps = before ++ .event (.established connection) :: later →
    (origin.run before).phase = .awaitingConnection →
    callsOn connection (origin.lifetimeCalls steps) =
      carriedCalls (origin.run steps).stats.samples
          ((origin.run steps).stats.samples < (origin.run steps).sends) ++
        partingCalls ((origin.run steps).phase = .terminated)
  refused : ∀ before connection later,
    steps = before ++ .event (.established connection) :: later →
    (origin.run before).phase.isConnected = true →
    ((origin.run before).react (.event (.established connection))).calls =
        [connection.does .close, connection.does .drop] ∧
      callsOn connection (origin.lifetimeCalls steps) = [.close, .drop]
  late : ∀ before connection later,
    steps = before ++ .event (.established connection) :: later →
    (origin.run before).phase = .terminated →
    ((origin.run before).react (.event (.established connection))).calls =
        [connection.does .drop] ∧
      callsOn connection (origin.lifetimeCalls steps) = [.drop]
  single : (origin.adoptions steps).length ≤ 1
  disciplined : ∀ connection ∈ deliveries steps,
    Disciplined (callsOn connection (origin.lifetimeCalls steps))
  owned : ∀ made ∈ origin.lifetimeCalls steps,
    made.connection ∈ deliveries steps
  working : ∀ made ∈ origin.lifetimeCalls steps,
    made.call.isArm = true ∨ made.call.isSend = true →
    made.connection ∈ origin.adoptions steps

theorem exists_delivery {steps : List Step}
    (member : connection ∈ deliveries steps) :
    ∃ before later,
      steps = before ++ .event (.established connection) :: later := by
  obtain ⟨step, among, delivers⟩ := List.mem_filterMap.mp member
  have same := Step.delivered?_eq_some.mp delivers
  obtain ⟨before, later, split⟩ := List.append_of_mem among
  exact ⟨before, later, by rw [split, same]⟩

theorem delivered_once {before later : List Step}
    (once : (deliveries
      (before ++ .event (.established connection) :: later)).Nodup) :
    connection ∉ deliveries before ∧ connection ∉ deliveries later := by
  have split : deliveries
      (before ++ .event (.established connection) :: later) =
        deliveries before ++ connection :: deliveries later :=
    List.filterMap_append
  rw [split, List.nodup_middle, List.nodup_cons, List.mem_append, not_or]
    at once
  exact once.1

/-- The calls on a connection begin with the step that delivers it. -/
theorem callsOn_before (origin : Machine) {before : List Step}
    (rest : List Step) (free : origin.connection = none)
    (never : connection ∉ deliveries before) :
    (origin.run before).connection ≠ some connection ∧
      callsOn connection (origin.lifetimeCalls (before ++ rest)) =
        callsOn connection ((origin.run before).lifetimeCalls rest) := by
  have apart : origin.connection ≠ some connection := by
    rw [free]
    exact nofun
  obtain ⟨still, silent⟩ := callsOf_elsewhere apart never
  refine ⟨still, ?_⟩
  rw [lifetimeCalls_append, callsOn_append, silent, List.nil_append]

section FromStart

variable {transport : Transport} {listening : Bool}
  {before later steps : List Step}

theorem adopted_works
    (once : (deliveries
      (before ++ .event (.established connection) :: later)).Nodup)
    (waiting : ((start transport listening).run before).phase =
      .awaitingConnection) :
    callsOn connection ((start transport listening).lifetimeCalls
        (before ++ .event (.established connection) :: later)) =
      ((start transport listening).run
          (before ++ .event (.established connection) :: later)).carried ++
        partingCalls (((start transport listening).run
          (before ++ .event (.established connection) :: later)).phase =
            .terminated) := by
  obtain ⟨earlier, never⟩ := delivered_once once
  obtain ⟨_, begins⟩ := callsOn_before
    (start transport listening)
    (.event (.established connection) :: later) rfl earlier
  rw [begins, run_append]
  exact callsOn_adopted (run_consistent transport listening before)
    (run_balanced transport listening before) waiting never

theorem others_refused
    (once : (deliveries
      (before ++ .event (.established connection) :: later)).Nodup)
    (left : ((start transport listening).run before).phase ≠
      .awaitingConnection) :
    (((start transport listening).run before).react
          (.event (.established connection))).calls =
        (partingCalls (((start transport listening).run before).phase ≠
          .terminated)).map connection.does ∧
      callsOn connection ((start transport listening).lifetimeCalls
          (before ++ .event (.established connection) :: later)) =
        partingCalls (((start transport listening).run before).phase ≠
          .terminated) := by
  obtain ⟨earlier, never⟩ := delivered_once once
  obtain ⟨apart, begins⟩ := callsOn_before
    (start transport listening)
    (.event (.established connection) :: later) rfl earlier
  rw [begins]
  exact callsOn_refused left apart never

/-- Only what was delivered is called, and only what was taken over works. -/
theorem working_adopted (once : (deliveries steps).Nodup)
    {made : ConnectionCall}
    (member : made ∈ (start transport listening).lifetimeCalls steps) :
    made.connection ∈ deliveries steps ∧
      (made.call.isArm = true ∨ made.call.isSend = true →
        made.connection ∈ (start transport listening).adoptions steps) := by
  have called := mem_callsOn member
  have delivered : made.connection ∈ deliveries steps := by
    by_contra never
    have free : (start transport listening).connection ≠
        some made.connection := nofun
    rw [lifetimeCalls_elsewhere free never] at called
    cases called
  refine ⟨delivered, ?_⟩
  intro works
  obtain ⟨before, later, rfl⟩ := exists_delivery delivered
  by_cases waiting : ((start transport listening).run before).phase =
      .awaitingConnection
  · have adopts : ((start transport listening).run before).adopted?
        (.event (.established made.connection)) = some made.connection :=
      adopted?_eq_some.mpr ⟨waiting, rfl⟩
    rw [adoptions_append, adoptions, adopts]
    exact List.mem_append_right _ List.mem_cons_self
  · rw [(others_refused once waiting).2] at called
    rcases mem_partingCalls called with close | drop
    · rw [close] at works
      simp [Call.isArm, Call.isSend] at works
    · rw [drop] at works
      simp [Call.isArm, Call.isSend] at works

end FromStart

/-- Over any run and the letting go of the machine after it, each connection
that was delivered is handled as it should be. -/
theorem connections_handled (transport : Transport) (listening : Bool)
    (steps : List Step) (once : (deliveries steps).Nodup) :
    (start transport listening).Handles steps where
  adopted := by
    rintro before connection later rfl waiting
    exact adopted_works once waiting
  refused := by
    rintro before connection later rfl connected
    have left : ((start transport listening).run before).phase ≠
        .awaitingConnection := by
      intro waiting
      rw [waiting] at connected
      cases connected
    have going := going_of_connected connected
    have refused := others_refused once left
    rw [decide_eq_true going] at refused
    exact refused
  late := by
    rintro before connection later rfl finished
    have left : ((start transport listening).run before).phase ≠
        .awaitingConnection := by
      rw [finished]
      decide
    have refused := others_refused once left
    rw [finished] at refused
    exact refused
  single := adoptions_length_le _ (start_consistent transport listening) steps
  disciplined := by
    intro connection member
    obtain ⟨before, later, rfl⟩ := exists_delivery member
    by_cases waiting : ((start transport listening).run before).phase =
        .awaitingConnection
    · rw [adopted_works once waiting]
      exact disciplined_of_parting _ fun _ member => mem_carriedCalls member
    · rw [(others_refused once waiting).2, ← List.nil_append (partingCalls _)]
      exact disciplined_of_parting _ fun _ member => nomatch member
  owned := fun _ member => (working_adopted once member).1
  working := fun _ member => (working_adopted once member).2

/-- Steps that deliver three connections: one is taken over, one comes while
it is connected, one after the end. -/
def threeDeliveries : List Step :=
  [.event (.established { number := 0, transport := .rawTcp }),
   .intent .sendCommand 10,
   .event (.established { number := 1, transport := .rawTcp }),
   .event (.received acknowledgment 25),
   .intent .sendCommand 30,
   .event (.failed .closed),
   .event (.established { number := 2, transport := .rawTcp })]

theorem threeDeliveries_handled :
    (deliveries threeDeliveries).Nodup ∧
      (start .rawTcp false).Handles threeDeliveries ∧
      callsOn { number := 0, transport := .rawTcp }
          ((start .rawTcp false).lifetimeCalls threeDeliveries) =
        [.arm, .send command, .arm, .send command, .close, .drop] ∧
      callsOn { number := 1, transport := .rawTcp }
          ((start .rawTcp false).lifetimeCalls threeDeliveries) =
        [.close, .drop] ∧
      callsOn { number := 2, transport := .rawTcp }
          ((start .rawTcp false).lifetimeCalls threeDeliveries) =
        [.drop] := by
  have once : (deliveries threeDeliveries).Nodup := by decide
  exact ⟨once, connections_handled .rawTcp false threeDeliveries once,
    rfl, rfl, rfl⟩

end LatencyBench.Machine

/-
Letting go of the socket.

Both tasks of a connection hold a part of its socket, and what was never
started of them is held by the handle.  Closing the handle releases both parts.
The end of the runtime does not: it ends the tasks that run, but not the
receiving task that a handle has kept parked.
-/

import LatencyBench.Proofs.Wire.Accepting

namespace LatencyBench

open Net

/-! ### Connections -/

namespace Link

/-- Whether a connection holds no part of its socket any more. -/
structure Released (link : Link) : Prop where
  receiving : link.receiving = .ended
  sending : link.sending = .ended

/-- Whether the handle of a connection has not been used so far. -/
structure Unused (link : Link) : Prop where
  closed : link.closed = false
  receiving : link.receiving = .parked

/-- What can become of a connection without a call on its handle. -/
structure Goes (before after : Link) : Prop where
  closed : after.closed = before.closed
  parked : before.receiving = .parked → after.receiving = .parked
  ended : before.receiving = .ended → after.receiving = .ended
  released : before.Released → after.Released

variable {before after link : Link}

theorem Unused.not_released (unused : link.Unused) : ¬ link.Released := by
  intro released
  have both := unused.receiving.symm.trans released.receiving
  cases both

theorem Goes.unused (goes : before.Goes after) (unused : before.Unused) :
    after.Unused where
  closed := goes.closed.trans unused.closed
  receiving := goes.parked unused.receiving

theorem goes_refl (link : Link) : link.Goes link where
  closed := rfl
  parked := id
  ended := id
  released := id

theorem goes_of_receiving (running : before.receiving = .running)
    (closed : after.closed = before.closed) : before.Goes after where
  closed := closed
  parked parked := by rw [running] at parked; cases parked
  ended ended := by rw [running] at ended; cases ended
  released released := by
    have ended := released.receiving
    rw [running] at ended
    cases ended

theorem goes_of_sending (going : before.sending ≠ .ended)
    (closed : after.closed = before.closed)
    (receiving : after.receiving = before.receiving) :
    before.Goes after where
  closed := closed
  parked parked := receiving.trans parked
  ended ended := receiving.trans ended
  released released := absurd released.sending going

/-! ### The tasks -/

theorem answer_closed (link : Link) (socket : Socket) (bytes : List UInt8) :
    (link.answer socket bytes).2.1.closed = link.closed := by
  unfold answer
  split <;> rfl

theorem hearFarewell_link (link : Link) (answer : List UInt8) :
    ∃ sending farewell,
      link.hearFarewell answer =
        { link with
          sending := sending
          farewell := farewell } := by
  unfold hearFarewell
  split <;> exact ⟨_, _, rfl⟩

theorem actOn_closed (link : Link) (socket : Socket) (now : Instant)
    (received : List Received) :
    (link.actOn socket now received).link.closed = link.closed := by
  induction received generalizing link socket with
  | nil => rfl
  | cons first rest inductionHypothesis =>
      cases first with
      | message payload => exact inductionHypothesis link socket
      | answer bytes =>
          have same := link.answer_closed socket bytes
          unfold actOn
          generalize link.answer socket bytes = answered at same ⊢
          rcases answered with ⟨result, next, written⟩
          cases result with
          | error error => exact same
          | ok _ => exact (inductionHypothesis next written).trans same
      | farewell answer =>
          obtain ⟨sending, farewell, heard⟩ := link.hearFarewell_link answer
          rw [actOn, heard]
          rfl
      | fault fault => rfl

theorem meetEnd_closed (step : LinkStep) :
    (meetEnd step).link.closed = step.link.closed := by
  unfold meetEnd
  split <;> rfl

theorem receive_goes (link : Link) (socket : Socket) (most : Nat)
    (now : Instant) : link.Goes (link.receive socket most now).link := by
  unfold receive
  split
  case h_1 running =>
      apply goes_of_receiving running
      rw [meetEnd_closed, actOn_closed]
  case h_2 => exact link.goes_refl

theorem stopReceiving_goes (link : Link) : link.Goes link.stopReceiving := by
  unfold stopReceiving
  split
  case isTrue called => exact goes_of_receiving called.2 rfl
  case isFalse => exact link.goes_refl

theorem write_kept (link : Link) (socket : Socket) (room : Nat)
    (payload : Payload) (unsent : List UInt8) :
    (link.write socket room payload unsent).link.closed = link.closed ∧
      (link.write socket room payload unsent).link.receiving =
        link.receiving := by
  unfold write
  rcases socket.write (unsent.take room) with ⟨result, written⟩
  cases result with
  | error error => exact ⟨rfl, rfl⟩
  | ok _ =>
      dsimp only
      split <;> exact ⟨rfl, rfl⟩

theorem send_goes (link : Link) (socket : Socket) (room : Nat) :
    link.Goes (link.send socket room).link := by
  unfold send
  split
  case h_1 payload unsent writing =>
      have kept := link.write_kept socket room payload unsent
      exact goes_of_sending (by rw [writing]; exact nofun) kept.1 kept.2
  case h_2 payload rest waiting _ =>
      have going : link.sending ≠ .ended := by rw [waiting]; exact nofun
      dsimp only
      split
      · exact goes_of_sending going rfl rfl
      · have kept := write_kept { link with outbox := rest } socket room
          payload (link.transport.wireBytes payload)
        exact goes_of_sending going kept.1 kept.2
  case h_3 => exact link.goes_refl

theorem stopSending_goes (link : Link) (socket : Socket) :
    link.Goes (link.stopSending socket).link := by
  unfold stopSending
  split
  case isTrue called =>
      exact goes_of_sending (by rw [called.2]; exact nofun) rfl rfl
  case isFalse => exact link.goes_refl

theorem halt_goes (link : Link) : link.Goes link.halt where
  closed := rfl
  parked parked := by simp [halt, parked]
  ended ended := by simp [halt, ended]
  released released := by
    constructor
    · simp [halt, released.receiving]
    · rfl

/-! ### The handle -/

theorem close_released (link : Link) (opened : link.closed = false) :
    link.close.closed = true ∧ link.close.Released := by
  rw [close, if_neg (by simp [opened])]
  exact ⟨rfl, rfl, rfl⟩

theorem close_of_closed (link : Link) (closed : link.closed = true) :
    link.close = link := by
  rw [close, if_pos closed]

theorem arm_closed (link : Link) : link.arm.closed = link.closed := by
  unfold arm
  split
  · rfl
  · split <;> rfl

theorem post_closed (link : Link) (payload : Payload) :
    (link.post payload).1.closed = link.closed := by
  unfold post
  split <;> rfl

end Link

/-! ### Transports -/

def Event.connection? : Event → Option Connection
  | .established connection => some connection
  | _ => none

def connectionsIn (events : List Event) : List Connection :=
  events.filterMap Event.connection?

theorem connectionsIn_append (first later : List Event) :
    connectionsIn (first ++ later) =
      connectionsIn first ++ connectionsIn later :=
  List.filterMap_append

theorem mem_connectionsIn {events : List Event} {connection : Connection} :
    connection ∈ connectionsIn events ↔ .established connection ∈ events := by
  unfold connectionsIn
  rw [List.mem_filterMap]
  constructor
  · rintro ⟨event, member, found⟩
    cases event with
    | established other =>
        cases found
        exact member
    | _ => cases found
  · exact fun member => ⟨_, member, rfl⟩

theorem connectionsIn_ofConnection {now : Instant} {events : List Event}
    (reported : ∀ event ∈ events, event.OfConnection now) :
    connectionsIn events = [] := by
  apply List.filterMap_eq_nil_iff.mpr
  intro event member
  cases reported event member <;> rfl

namespace Endpoint

/-- What can become of a transport without a call on its connection: no
connection comes up and the one that is there goes on, or a new one is handed
over. -/
inductive Passes (before after : Endpoint) (events : List Event) : Prop where
  | goes (same : after.connection = before.connection)
      (accepting : before.accepting = .ended → after.accepting = .ended)
      (nothing : connectionsIn events = [])
      (bare : before.link = none → after.link = none)
      (linked : ∀ link, before.link = some link →
        ∃ later, after.link = some later ∧ link.Goes later)
  | hands (same : after.connection = before.connection)
      (going : before.accepting ≠ .ended)
      (ended : after.accepting = .ended)
      (one : connectionsIn events = [before.connection]) (link : Link)
      (made : after.link = some link) (unused : link.Unused)

variable {before after endpoint : Endpoint}

theorem passes_of_same (same : after.connection = before.connection)
    (accepting : before.accepting = .ended → after.accepting = .ended)
    (link : after.link = before.link) {events : List Event}
    (nothing : connectionsIn events = []) : Passes before after events := by
  refine .goes same accepting nothing ?_ ?_
  · exact fun bare => link.trans bare
  · exact fun held linked => ⟨held, link.trans linked, held.goes_refl⟩

theorem passes_quietly (same : after.connection = before.connection)
    (accepting : before.accepting = .ended → after.accepting = .ended)
    (link : after.link = before.link) : Passes before after [] :=
  passes_of_same same accepting link rfl

theorem passes_nothing (endpoint : Endpoint) : Passes endpoint endpoint [] :=
  passes_quietly rfl id rfl

theorem establish_passes (same : after.connection = before.connection)
    (going : before.accepting ≠ .ended) :
    Passes before after.establish.1 after.establish.2 := by
  refine .hands same going rfl ?_ _ rfl ⟨rfl, rfl⟩
  rw [← same]
  rfl

theorem endAccepting_passes (same : after.connection = before.connection)
    (link : after.link = before.link) (event : Event)
    (refusal : event.isRefusal = true) :
    Passes before (after.endAccepting event).1
      (after.endAccepting event).2 := by
  have nothing : connectionsIn [event] = [] := by
    cases event with
    | established connection => cases refusal
    | _ => rfl
  apply passes_of_same
  · exact same
  · exact fun _ => rfl
  · exact link
  · exact nothing

theorem refuseUpgrade_passes (same : after.connection = before.connection)
    (link : after.link = before.link) (error : WebSocket.UpgradeError) :
    Passes before (after.refuseUpgrade error).1
      (after.refuseUpgrade error).2 :=
  endAccepting_passes same link (.failed (.handshake error.message)) rfl

theorem accept_passes (endpoint : Endpoint) :
    Passes endpoint endpoint.accept.1 endpoint.accept.2 := by
  unfold accept
  split
  case h_1 waiting _ =>
      have going : endpoint.accepting ≠ .ended := by simp [waiting]
      split
      · exact endAccepting_passes rfl rfl _ rfl
      · split
        · exact establish_passes rfl going
        · exact passes_quietly rfl (fun ended => absurd ended going) rfl
  case h_2 => exact endpoint.passes_nothing

theorem acceptFails_passes (endpoint : Endpoint) (error : IoError) :
    Passes endpoint (endpoint.acceptFails error).1
      (endpoint.acceptFails error).2 := by
  unfold acceptFails
  split
  · exact endAccepting_passes rfl rfl _ rfl
  · exact endpoint.passes_nothing

theorem giveUpAccepting_passes (endpoint : Endpoint) :
    Passes endpoint endpoint.giveUpAccepting.1
      endpoint.giveUpAccepting.2 := by
  unfold giveUpAccepting
  split
  · exact endAccepting_passes rfl rfl _ rfl
  · exact endpoint.passes_nothing

theorem upgradePiece_passes (going : endpoint.accepting ≠ .ended)
    (upgrade : WebSocket.Upgrade) (socket : Socket) :
    Passes endpoint (endpoint.upgradePiece upgrade socket).1
      (endpoint.upgradePiece upgrade socket).2 := by
  unfold upgradePiece
  split
  · apply refuseUpgrade_passes <;> rfl
  · apply refuseUpgrade_passes <;> rfl
  · dsimp only
    split
    · exact endpoint.passes_nothing
    · split
      · exact passes_quietly rfl (fun ended => absurd ended going) rfl
      · unfold agreeUpgrade
        split
        · apply refuseUpgrade_passes <;> rfl
        · exact establish_passes rfl going
      · apply refuseUpgrade_passes <;> rfl

theorem upgrade_passes (endpoint : Endpoint) :
    Passes endpoint endpoint.upgrade.1 endpoint.upgrade.2 := by
  unfold Endpoint.upgrade
  split
  case h_1 upgrading _ =>
      exact upgradePiece_passes (by simp [upgrading]) _ _
  case h_2 => exact endpoint.passes_nothing

theorem onLink_passes (endpoint : Endpoint) (now : Instant)
    (turn : Link → Socket → LinkStep)
    (reported : ∀ link socket, ∀ event ∈ (turn link socket).events,
      event.OfConnection now)
    (goes : ∀ (link : Link) (socket : Socket),
      link.Goes (turn link socket).link) :
    Passes endpoint (endpoint.onLink turn).1 (endpoint.onLink turn).2 := by
  unfold onLink
  split
  case h_1 link socket linked _ =>
      refine .goes rfl id
        (connectionsIn_ofConnection (reported link socket)) ?_ ?_
      · intro bare
        rw [linked] at bare
        cases bare
      · intro held same
        rw [linked] at same
        cases same
        exact ⟨_, rfl, goes link socket⟩
  case h_2 => exact endpoint.passes_nothing

theorem taskTurn_passes (endpoint : Endpoint) (now : Instant)
    (step : EndpointStep) :
    Passes endpoint (endpoint.taskTurn now step).1
      (endpoint.taskTurn now step).2 := by
  cases step with
  | accept => exact endpoint.accept_passes
  | acceptFails error => exact endpoint.acceptFails_passes error
  | giveUpAccepting => exact endpoint.giveUpAccepting_passes
  | upgrade => exact endpoint.upgrade_passes
  | receive most =>
      exact endpoint.onLink_passes now _
        (fun link socket => link.receive_ofConnection socket now most)
        (fun link socket => link.receive_goes socket most now)
  | stopReceiving =>
      exact endpoint.onLink_passes now _ (fun _ _ => List.forall_mem_nil _)
        (fun link _ => link.stopReceiving_goes)
  | send room =>
      exact endpoint.onLink_passes now _
        (fun link socket => link.send_ofConnection socket now room)
        (fun link socket => link.send_goes socket room)
  | stopSending =>
      exact endpoint.onLink_passes now _
        (fun link socket => link.stopSending_ofConnection socket now)
        (fun link socket => link.stopSending_goes socket)
  | connect _ => exact endpoint.passes_nothing
  | arrive _ => exact endpoint.passes_nothing
  | finish => exact endpoint.passes_nothing
  | hangUp => exact endpoint.passes_nothing
  | reset => exact endpoint.passes_nothing

theorem connect_passes (endpoint : Endpoint) (addressKnown : Bool) :
    Passes endpoint (endpoint.connect addressKnown) [] := by
  unfold connect
  split
  · exact passes_quietly rfl id rfl
  · exact endpoint.passes_nothing

theorem onSocket_passes (endpoint : Endpoint) (change : Socket → Socket) :
    Passes endpoint (endpoint.onSocket change) [] :=
  passes_quietly rfl id rfl

theorem turn_passes (endpoint : Endpoint) (now : Instant)
    (step : EndpointStep) :
    Passes endpoint (endpoint.turn now step).1
      (endpoint.turn now step).2 := by
  unfold turn
  split
  · exact endpoint.connect_passes _
  · exact endpoint.onSocket_passes _
  · exact endpoint.onSocket_passes _
  · exact endpoint.onSocket_passes _
  · exact endpoint.onSocket_passes _
  · split
    · exact endpoint.passes_nothing
    · exact endpoint.taskTurn_passes now _

theorem mapLink_passes {change : Link → Link}
    (same : after.connection = before.connection)
    (accepting : before.accepting = .ended → after.accepting = .ended)
    (link : after.link = before.link.map change)
    (goes : ∀ link : Link, link.Goes (change link)) :
    Passes before after [] := by
  refine .goes same accepting rfl ?_ ?_
  · intro bare
    rw [link, bare]
    rfl
  · intro held linked
    refine ⟨change held, ?_, goes held⟩
    rw [link, linked]
    rfl

theorem cancelSession_passes (endpoint : Endpoint) :
    Passes endpoint endpoint.cancelSession [] :=
  mapLink_passes rfl id rfl fun _ =>
    { closed := rfl
      parked := id
      ended := id
      released := fun released => ⟨released.receiving, released.sending⟩ }

theorem halt_passes (endpoint : Endpoint) : Passes endpoint endpoint.halt [] :=
  mapLink_passes rfl (fun _ => rfl) rfl Link.halt_goes

end Endpoint

end LatencyBench

/-
One turn of the receiving task.

The task takes bytes from the socket, feeds them to its receive loop, and acts
on what comes out.  As long as its answers can be written, its reports are
those of the loop, and it ends with the loop or at the end of the stream.  The
sending task shares the socket but neither takes bytes nor ends the stream.
-/

import LatencyBench.Proofs.WebSocket.Reports
import LatencyBench.Proofs.Wire.Release

namespace LatencyBench

open Net

/-! ### The socket -/

namespace Net.Socket

/-- Whether a stream has not been aborted. -/
def Orderly (socket : Socket) : Prop :=
  ∀ error, socket.ending ≠ some (.failed error)

/-- Whether two sockets are the same to one who reads. -/
structure Alike (before after : Socket) : Prop where
  inbound : after.inbound = before.inbound
  ending : after.ending = before.ending

variable {socket before after : Socket}

theorem alike_refl (socket : Socket) : socket.Alike socket := ⟨rfl, rfl⟩

theorem Alike.trans {first second third : Socket}
    (there : first.Alike second) (onward : second.Alike third) :
    first.Alike third where
  inbound := onward.inbound.trans there.inbound
  ending := onward.ending.trans there.ending

theorem Alike.orderly (alike : before.Alike after)
    (orderly : before.Orderly) : after.Orderly := by
  intro error failed
  exact orderly error (alike.ending.symm.trans failed)

theorem write_alike (orderly : socket.Orderly) (bytes : List UInt8) :
    socket.Alike (socket.write bytes).2 := by
  unfold write
  split
  · exact socket.alike_refl
  · split
    · exact ⟨rfl, rfl⟩
    · exact ⟨rfl, rfl⟩
    · split
      case h_1 error failed => exact absurd failed (orderly error)
      case h_2 => exact socket.alike_refl

theorem take_orderly (orderly : socket.Orderly) (most : Nat) :
    (socket.take most).2.Orderly :=
  orderly

theorem endReached_eq (orderly : socket.Orderly) :
    socket.endReached =
      if socket.inbound.isEmpty && socket.ending.isSome then some .finished
      else none := by
  unfold endReached
  cases socket.inbound.isEmpty with
  | false => rfl
  | true =>
      cases ending : socket.ending with
      | none => rfl
      | some last =>
          cases last with
          | finished => rfl
          | failed error => exact absurd ending (orderly error)

end Net.Socket

namespace Link

/-! ### What the receiving task does not notice -/

/-- Whether two connections are the same to the receiving task. -/
structure Spares (before after : Link) : Prop where
  receiving : after.receiving = before.receiving
  intake : after.intake = before.intake
  closed : after.closed = before.closed
  cancelled : after.cancelled = before.cancelled

variable {link before after : Link} {socket : Socket}

theorem spares_refl (link : Link) : link.Spares link := ⟨rfl, rfl, rfl, rfl⟩

theorem Spares.trans {first second third : Link}
    (there : first.Spares second) (onward : second.Spares third) :
    first.Spares third where
  receiving := onward.receiving.trans there.receiving
  intake := onward.intake.trans there.intake
  closed := onward.closed.trans there.closed
  cancelled := onward.cancelled.trans there.cancelled

theorem post_spares (link : Link) (payload : Payload) :
    link.Spares (link.post payload).1 := by
  unfold post
  split
  · exact link.spares_refl
  · exact ⟨rfl, rfl, rfl, rfl⟩

theorem answer_spares (link : Link) (orderly : socket.Orderly)
    (bytes : List UInt8) :
    link.Spares (link.answer socket bytes).2.1 ∧
      socket.Alike (link.answer socket bytes).2.2 := by
  unfold answer
  split
  · exact ⟨⟨rfl, rfl, rfl, rfl⟩, socket.alike_refl⟩
  · exact ⟨link.spares_refl, Socket.write_alike orderly bytes⟩

theorem write_spares (link : Link) (orderly : socket.Orderly) (room : Nat)
    (payload : Payload) (unsent : List UInt8) :
    link.Spares (link.write socket room payload unsent).link ∧
      socket.Alike (link.write socket room payload unsent).socket := by
  have alike := Socket.write_alike orderly (unsent.take room)
  unfold write
  generalize socket.write (unsent.take room) = written at alike ⊢
  rcases written with ⟨result, later⟩
  cases result with
  | error error => exact ⟨⟨rfl, rfl, rfl, rfl⟩, alike⟩
  | ok _ =>
      dsimp only
      split <;> exact ⟨⟨rfl, rfl, rfl, rfl⟩, alike⟩

theorem send_spares (link : Link) (orderly : socket.Orderly) (room : Nat) :
    link.Spares (link.send socket room).link ∧
      socket.Alike (link.send socket room).socket := by
  unfold send
  split
  case h_1 => exact link.write_spares orderly room _ _
  case h_2 payload rest _ _ =>
      have took : link.Spares { link with outbox := rest } :=
        ⟨rfl, rfl, rfl, rfl⟩
      dsimp only
      split
      · exact ⟨took.trans ⟨rfl, rfl, rfl, rfl⟩, socket.alike_refl⟩
      · have wrote := write_spares { link with outbox := rest } orderly room
          payload (link.transport.wireBytes payload)
        exact ⟨took.trans wrote.1, wrote.2⟩
  case h_3 => exact ⟨link.spares_refl, socket.alike_refl⟩

theorem stopSending_of_going (going : link.cancelled = false)
    (socket : Socket) :
    link.stopSending socket =
      { link := link
        socket := socket } :=
  if_neg (by simp [going])

theorem stopReceiving_of_going (going : link.cancelled = false) :
    link.stopReceiving = link :=
  if_neg (by simp [going])

/-! ### Acting on what is received -/

def writesAnswers (link : Link) (socket : Socket) : List Received → Bool
  | [] => true
  | .message _ :: rest => link.writesAnswers socket rest
  | .answer bytes :: rest =>
      match link.answer socket bytes with
      | (.error _, _, _) => false
      | (.ok (), link, socket) => link.writesAnswers socket rest
  | _ => true

theorem actOn_alike (link : Link) (orderly : socket.Orderly) (now : Instant)
    (received : List Received) :
    socket.Alike (link.actOn socket now received).socket := by
  induction received generalizing link socket with
  | nil => exact socket.alike_refl
  | cons item rest inductionHypothesis =>
      cases item with
      | message payload => exact inductionHypothesis link orderly
      | answer bytes =>
          have alike := (link.answer_spares orderly bytes).2
          unfold actOn
          generalize link.answer socket bytes = answered at alike ⊢
          rcases answered with ⟨result, next, wrote⟩
          cases result with
          | error error => exact alike
          | ok _ =>
              exact alike.trans
                (inductionHypothesis next (alike.orderly orderly))
      | farewell answer => exact socket.alike_refl
      | fault fault => exact socket.alike_refl

/-- What becomes of a connection whose receiving task has acted on what it
received. -/
structure ActedOn (link : Link) (now : Instant) (received : List Received)
    (acted : LinkStep) : Prop where
  events : acted.events = reported now received
  receiving : acted.link.receiving =
    if ends received then .ended else .running
  intake : acted.link.intake = link.intake
  closed : acted.link.closed = link.closed
  cancelled : acted.link.cancelled = link.cancelled

theorem actOn_actedOn (now : Instant) {received : List Received}
    (running : link.receiving = .running) (orderly : socket.Orderly)
    (written : link.writesAnswers socket received = true) :
    ActedOn link now received (link.actOn socket now received) := by
  induction received generalizing link socket with
  | nil => exact ⟨rfl, running, rfl, rfl, rfl⟩
  | cons item rest inductionHypothesis =>
      cases item with
      | message payload =>
          have later := inductionHypothesis running orderly written
          exact
            { later with
              events := congrArg (Event.received payload now :: ·)
                later.events }
      | answer bytes =>
          obtain ⟨spares, alike⟩ := link.answer_spares orderly bytes
          unfold writesAnswers at written
          unfold actOn
          generalize link.answer socket bytes = answered at *
          rcases answered with ⟨result, next, wrote⟩
          cases result with
          | error error => cases written
          | ok _ =>
              have later := inductionHypothesis
                (spares.receiving.trans running) (alike.orderly orderly)
                written
              exact
                { events := later.events
                  receiving := later.receiving
                  intake := later.intake.trans spares.intake
                  closed := later.closed.trans spares.closed
                  cancelled := later.cancelled.trans spares.cancelled }
      | farewell answer =>
          obtain ⟨sending, farewell, heard⟩ := link.hearFarewell_link answer
          rw [actOn, heard]
          exact ⟨rfl, rfl, rfl, rfl, rfl⟩
      | fault fault => exact ⟨rfl, rfl, rfl, rfl, rfl⟩

/-! ### A turn -/

theorem meetEnd_of_ended {step : LinkStep}
    (ended : step.link.receiving = .ended) : meetEnd step = step := by
  unfold meetEnd
  rw [ended]

theorem meetEnd_of_open {step : LinkStep}
    (more : step.socket.endReached = none) : meetEnd step = step := by
  unfold meetEnd
  rw [more]
  cases step.link.receiving <;> rfl

theorem meetEnd_of_finished {step : LinkStep}
    (running : step.link.receiving = .running)
    (finished : step.socket.endReached = some .finished) :
    meetEnd step =
      { link :=
          { step.link with
            receiving := .ended
            farewell := .silent }
        socket := step.socket
        events := step.events ++ [.failed .closed] } := by
  unfold meetEnd
  rw [running, finished]
  rfl

def answersIn (link : Link) (socket : Socket) (most : Nat) : Bool :=
  let (intake, received) := link.intake.feed (socket.inbound.take most)
  { link with intake := intake }.writesAnswers (socket.take most).2 received

def exhausts (socket : Socket) (most : Nat) : Bool :=
  (socket.inbound.drop most).isEmpty && socket.ending.isSome

/-- What becomes of a connection whose receiving task has made a turn and
received something in it. -/
structure Turned (link : Link) (socket : Socket) (most : Nat)
    (now : Instant) (intake : Intake) (received : List Received)
    (turned : LinkStep) : Prop where
  events : turned.events =
    reported now received ++
      if exhausts socket most && !ends received then [.failed .closed] else []
  receiving : turned.link.receiving =
    if exhausts socket most || ends received then .ended else .running
  intake : turned.link.intake = intake
  closed : turned.link.closed = link.closed
  cancelled : turned.link.cancelled = link.cancelled
  inbound : turned.socket.inbound = socket.inbound.drop most
  ending : turned.socket.ending = socket.ending

/-- A turn reports what the receive loop makes of the bytes that are taken,
and the end of the stream if that is all. -/
theorem receive_turned {most : Nat} (now : Instant)
    (running : link.receiving = .running) (orderly : socket.Orderly)
    (written : link.answersIn socket most = true) {intake : Intake}
    {received : List Received}
    (fed : link.intake.feed (socket.inbound.take most) =
      (intake, received)) :
    Turned link socket most now intake received
      (link.receive socket most now) := by
  unfold answersIn at written
  rw [fed] at written
  have still := Socket.take_orderly orderly most
  have alike := actOn_alike { link with intake := intake } still now received
  have acted := @actOn_actedOn { link with intake := intake } _ now _ running
    still written
  have taken : link.receive socket most now =
      meetEnd ({ link with intake := intake }.actOn (socket.take most).2 now
        received) := by
    unfold receive
    rw [running]
    simp only [Socket.take, fed]
  rw [taken]
  generalize { link with intake := intake }.actOn (socket.take most).2 now
    received = step at acted alike ⊢
  have inbound : step.socket.inbound = socket.inbound.drop most :=
    alike.inbound
  have ending : step.socket.ending = socket.ending := alike.ending
  have reached := Socket.endReached_eq (alike.orderly still)
  rw [inbound, ending] at reached
  change step.socket.endReached =
    if exhausts socket most then some .finished else none at reached
  have receiving := acted.receiving
  cases said : ends received with
  | true =>
      rw [said, if_pos rfl] at receiving
      rw [meetEnd_of_ended receiving]
      refine ⟨?_, ?_, acted.intake, acted.closed, acted.cancelled, inbound,
        ending⟩
      · rw [acted.events, said, Bool.not_true, Bool.and_false]
        exact (List.append_nil _).symm
      · rw [receiving, said, Bool.or_true, if_pos rfl]
  | false =>
      rw [said, if_neg Bool.false_ne_true] at receiving
      cases last : exhausts socket most with
      | false =>
          rw [last, if_neg Bool.false_ne_true] at reached
          rw [meetEnd_of_open reached]
          refine ⟨?_, ?_, acted.intake, acted.closed, acted.cancelled,
            inbound, ending⟩
          · rw [acted.events, last]
            exact (List.append_nil _).symm
          · rw [receiving, said, last]
            rfl
      | true =>
          rw [last, if_pos rfl] at reached
          rw [meetEnd_of_finished receiving reached]
          refine ⟨?_, ?_, acted.intake, acted.closed, acted.cancelled,
            inbound, ending⟩
          · rw [last, said]
            exact congrArg (· ++ [Event.failed .closed]) acted.events
          · rw [last]
            rfl

theorem meetEnd_socket (step : LinkStep) :
    (meetEnd step).socket = step.socket := by
  unfold meetEnd
  split <;> rfl

theorem receive_orderly (link : Link) (orderly : socket.Orderly) (most : Nat)
    (now : Instant) : (link.receive socket most now).socket.Orderly := by
  unfold receive
  split
  · rw [meetEnd_socket]
    exact (actOn_alike _ (Socket.take_orderly orderly most) now _).orderly
      (Socket.take_orderly orderly most)
  · exact orderly

end Link

end LatencyBench

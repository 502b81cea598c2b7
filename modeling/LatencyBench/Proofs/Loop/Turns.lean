/-
The turns of the tasks of a connection, and the calls on it, keep every command
and every acknowledgment accounted for.
-/

import LatencyBench.Proofs.Loop.Channel

namespace LatencyBench.Loop

open Http Net WebSocket

section Turns

variable {endpoint : Endpoint} {peer : Peer} {socket : Socket} {link : Link}
  {consumed part : List UInt8} {posts sents receipts : Nat}

theorem Channel.fail (channel : Channel endpoint peer socket link consumed
      part posts sents receipts) {bytes : List UInt8} {error : IoError}
    {after : Socket} (fault : Fault)
    (writes : Wrote peer socket bytes (.error error) after)
    (within : sents + 1 ≤ posts) :
    Talking
      (holding endpoint (link.endSending after fault).link
        (link.endSending after fault).socket) peer
      (link.endSending after fault).socket
      (link.endSending after fault).link consumed part posts sents
      receipts :=
  have finished := writes.refused error rfl
  { channel with
    spoken := channel.spoken.write writes
    heard := channel.heard.write writes
    stream := by
      intro going
      change peer.isOver = false at going
      rw [finished] at going
      cases going
    outbox := by
      intro payload member
      cases member
    met := rfl
    linked := rfl
    fits := ⟨Nat.le_of_succ_le within, fun _ => ⟨within, .inl finished⟩⟩
    stopped := by
      intro _
      exact .inl rfl }

theorem Channel.finish (channel : Channel endpoint peer socket link consumed
      part posts sents receipts) {unsent : List UInt8} {after : Socket}
    (calm : link.cancelled = false)
    (whole : part ++ unsent = endpoint.transport.commandBytes)
    (writes : Wrote peer socket unsent (.ok ()) after)
    (within : sents + 1 + link.outbox.length ≤ posts) :
    Talking (holding endpoint { link with sending := .waiting } after) peer
      after { link with sending := .waiting } consumed [] posts (sents + 1)
      receipts :=
  { channel with
    spoken := channel.spoken.write writes
    heard := channel.heard.write writes
    stream := by
      intro going
      rw [writes.outbound going, channel.stream going, repeated_succ]
      simp only [List.append_nil, List.append_assoc, whole]
      rfl
    proper := properPart_nil (commandBytes_ne_nil _)
    listening := by
      intro awake listens
      exact Nat.le_succ_of_le (channel.listening awake listens)
    met := rfl
    linked := rfl
    fits := ⟨rfl, within⟩
    stopped := by
      intro cancelled
      change link.cancelled = true at cancelled
      rw [calm] at cancelled
      cases cancelled }

theorem Channel.proceed (channel : Channel endpoint peer socket link consumed
      part posts sents receipts) {unsent : List UInt8} {after : Socket}
    (room : Nat) (calm : link.cancelled = false)
    (whole : part ++ unsent = endpoint.transport.commandBytes)
    (writes : Wrote peer socket (unsent.take room) (.ok ()) after)
    (left : unsent.drop room ≠ [])
    (within : sents + 1 + link.outbox.length ≤ posts) :
    Talking
      (holding endpoint
        { link with sending := .writing command (unsent.drop room) }
        after) peer after
      { link with sending := .writing command (unsent.drop room) } consumed
      (part ++ unsent.take room) posts sents receipts := by
  have split : part ++ unsent.take room ++ unsent.drop room =
      endpoint.transport.commandBytes := by
    rw [List.append_assoc, List.take_append_drop]
    exact whole
  exact
    { channel with
      spoken := channel.spoken.write writes
      heard := channel.heard.write writes
      stream := by
        intro going
        rw [writes.outbound going, channel.stream going]
        simp only [List.append_assoc]
        rfl
      proper :=
        { isPart := ⟨unsent.drop room, split⟩
          isProper := by
            intro same
            rw [same] at split
            exact left (List.append_right_eq_self.mp split) }
      met := rfl
      linked := rfl
      fits := ⟨rfl, left, split, within⟩
      stopped := by
        intro cancelled
        change link.cancelled = true at cancelled
        rw [calm] at cancelled
        cases cancelled }

theorem Channel.write (channel : Channel endpoint peer socket link consumed
      part posts sents receipts) (room : Nat) (now : Instant)
    {unsent : List UInt8} (calm : link.cancelled = false)
    (whole : part ++ unsent = endpoint.transport.commandBytes)
    (within : sents + 1 + link.outbox.length ≤ posts) :
    ∃ more written,
      Talking
        (holding endpoint (link.write socket room command unsent).link
          (link.write socket room command unsent).socket) peer
        (link.write socket room command unsent).socket
        (link.write socket room command unsent).link consumed more posts
        written receipts ∧
      Brought now posts sents receipts
        (link.write socket room command unsent).events written receipts := by
  have writes := wrote peer socket (unsent.take room) channel.heard.present
  have further : sents + 1 ≤ posts :=
    Nat.le_trans (Nat.le_add_right _ _) within
  unfold Link.write
  generalize socket.write (unsent.take room) = outcome at writes ⊢
  rcases outcome with ⟨result, after⟩
  cases result with
  | error error =>
      exact ⟨part, sents, channel.fail (.ofIoError error) writes further,
        .quiet rfl⟩
  | ok _ =>
      dsimp only at writes ⊢
      by_cases fits : unsent.length ≤ room
      · rw [if_pos fits]
        rw [List.take_of_length_le fits] at writes
        exact ⟨[], sents + 1, channel.finish calm whole writes within,
          .sent command.length rfl further⟩
      · rw [if_neg fits]
        have left : unsent.drop room ≠ [] := by
          intro nothing
          exact fits (List.drop_eq_nil_iff.mp nothing)
        exact ⟨part ++ unsent.take room, sents,
          channel.proceed room calm whole writes left within, .quiet rfl⟩

theorem Talking.holds (talking : Talking endpoint peer socket link consumed
    part posts sents receipts) : holding endpoint link socket = endpoint := by
  unfold holding
  rw [← talking.met, ← talking.linked]

/-- A command that is refused ends the sending task before any of it is
written. -/
theorem Channel.refuse (channel : Channel endpoint peer socket link consumed
      part posts sents receipts) (fault : Fault) (nothing : part = [])
    (within : sents ≤ posts) :
    Talking
      (holding endpoint (link.endSending socket fault).link
        (link.endSending socket fault).socket) peer
      (link.endSending socket fault).socket
      (link.endSending socket fault).link consumed part posts sents
      receipts :=
  { channel with
    outbox := by
      intro payload member
      cases member
    met := rfl
    linked := rfl
    fits := ⟨within, fun some => absurd nothing some⟩
    stopped := by
      intro _
      exact .inl rfl }

theorem Talking.send (talking : Talking endpoint peer socket link consumed
      part posts sents receipts) (awake : endpoint.halted = false)
    (room : Nat) (now : Instant) :
    ∃ more written,
      Talking
        (holding endpoint (link.send socket room).link
          (link.send socket room).socket) peer
        (link.send socket room).socket (link.send socket room).link consumed
        more posts written receipts ∧
      Brought now posts sents receipts (link.send socket room).events written
        receipts := by
  have fits := talking.fits
  -- A cancelled task has ended, or makes no turns any more.
  have calm (busy : link.sending ≠ .ended) : link.cancelled = false := by
    cases cancelled : link.cancelled with
    | false => rfl
    | true =>
        rcases talking.stopped cancelled with ended | halted
        · exact absurd ended busy
        · rw [awake] at halted
          cases halted
  have unchanged : ∃ more written,
      Talking (holding endpoint link socket) peer socket link consumed more
        posts written receipts ∧
      Brought now posts sents receipts [] written receipts := by
    rw [talking.holds]
    exact ⟨part, sents, talking, .quiet rfl⟩
  unfold Link.send
  cases sending : link.sending with
  | writing payload unsent =>
      rw [sending] at fits
      obtain ⟨same, _, whole, within⟩ := fits
      rw [same]
      exact talking.toChannel.write room now
        (calm (by rw [sending]; exact Sending.noConfusion)) whole within
  | ended => exact unchanged
  | waiting =>
      rw [sending] at fits
      obtain ⟨nothing, within⟩ := fits
      cases waiting : link.outbox with
      | nil => exact unchanged
      | cons payload rest =>
          rw [waiting, List.length_cons] at within
          have commands : ∀ other ∈ payload :: rest, other = command := by
            rw [← waiting]
            exact talking.outbox
          have next : Channel endpoint peer socket
              { link with outbox := rest } consumed part posts sents
              receipts :=
            { talking.toChannel with
              outbox := fun other member =>
                commands other (List.mem_cons_of_mem payload member) }
          dsimp only
          split
          · rename_i fault _
            exact ⟨part, sents, next.refuse fault nothing (by omega),
              .quiet rfl⟩
          · have whole : part ++ link.transport.wireBytes command =
                endpoint.transport.commandBytes := by
              rw [nothing, talking.sameTransport]
              rfl
            rw [commands payload List.mem_cons_self]
            exact next.write room now
              (calm (by rw [sending]; exact Sending.noConfusion)) whole
              (by simp only; omega)

/-! ### The receiving task -/

theorem actOn_messages (link : Link) (socket : Socket) (now : Instant)
    (count : Nat) :
    link.actOn socket now (List.replicate count (.message acknowledgment)) =
      { link := link
        socket := socket
        events := List.replicate count (.received acknowledgment now) } := by
  induction count with
  | zero => rfl
  | succ count inductionHypothesis =>
      simp only [List.replicate_succ, Link.actOn, inductionHypothesis]

theorem traffic_replicate (count : Nat) (payload : Payload) (now : Instant) :
    (List.replicate count (Event.received payload now)).filter isTraffic =
      List.replicate count (.received payload now) := by
  rw [List.filter_replicate]
  rfl

/-- What the session has taken behind the opening are acknowledgments of
commands that the peer has counted. -/
theorem Spoken.acknowledgments {transport : Transport} {consumed : List UInt8}
    (spoken : Spoken transport peer socket
      (transport.opening peer.choices ++ consumed)) :
    consumed <+:
      series (transport.acknowledgmentBytes peer.choices) peer.commands := by
  have taken : transport.opening peer.choices ++ consumed <+:
      transport.opening peer.choices ++
        series (transport.acknowledgmentBytes peer.choices)
          peer.commands := by
    rw [← spoken.said]
    have some : transport.opening peer.choices ++ consumed <+:
        peer.written.take peer.delivered := by
      rw [← spoken.arrived]
      exact List.prefix_append _ _
    exact some.trans (List.take_prefix _ _)
  exact
    (List.prefix_append_right_inj (transport.opening peer.choices)).mp taken

theorem Channel.feed (channel : Channel endpoint peer socket link consumed
      part posts sents receipts) (most : Nat) :
    ∃ count, receipts + count ≤ peer.commands ∧
      (link.intake.feed (socket.take most).1).2 =
        List.replicate count (.message acknowledgment) ∧
      (Intake.start endpoint.transport).feed
          (consumed ++ (socket.take most).1) =
        ((link.intake.feed (socket.take most).1).1,
          List.replicate (receipts + count) (.message acknowledgment)) := by
  have spoken := channel.spoken.take most
  rw [List.append_assoc] at spoken
  obtain ⟨whole, bound, all⟩ :=
    Intake.feed_of_acknowledgments spoken.acknowledgments
  have split := Intake.feed_append (.start endpoint.transport) consumed
    (socket.take most).1
  rw [channel.received] at split
  simp only at split
  rw [split] at all
  simp only at all
  obtain ⟨total, _, more⟩ := List.append_eq_replicate_iff.mp all
  rw [List.length_replicate] at total
  refine ⟨_, ?_, more, ?_⟩
  · omega
  · rw [split, all, total]

/-- A receiving task that ends brings no message, and takes part no more. -/
theorem Talking.deafen (talking : Talking endpoint peer socket link consumed
      part posts sents receipts) {farewell : Farewell}
    (polite : ∀ answer, farewell ≠ .owed answer) :
    Talking
      (holding endpoint
        { link with
          receiving := .ended
          farewell := farewell } socket) peer socket
      { link with
        receiving := .ended
        farewell := farewell } consumed part posts sents receipts :=
  { talking.toChannel with
    listening := by
      intro _ listens
      exact absurd rfl listens
    polite := polite
    met := rfl
    linked := rfl
    fits := talking.fits.imp fun _ => .inr (.inr rfl)
    stopped := talking.stopped }

theorem Talking.meetEnd (step : LinkStep)
    (talking : Talking (holding endpoint step.link step.socket) peer
      step.socket step.link consumed part posts sents receipts) :
    Talking
        (holding endpoint (Link.meetEnd step).link
          (Link.meetEnd step).socket) peer
        (Link.meetEnd step).socket (Link.meetEnd step).link consumed part
        posts sents receipts ∧
      (Link.meetEnd step).events.filter isTraffic =
        step.events.filter isTraffic := by
  unfold Link.meetEnd
  split
  · rename_i ending _ _
    refine ⟨?_, ?_⟩
    · refine talking.deafen ?_
      intro answer
      cases ending with
      | finished => exact Farewell.noConfusion
      | failed error => exact talking.polite answer
    · rw [List.filter_append]
      exact List.append_nil _
  · exact ⟨talking, rfl⟩

theorem Talking.receive (talking : Talking endpoint peer socket link
      consumed part posts sents receipts) (awake : endpoint.halted = false)
    (most : Nat) (now : Instant) :
    ∃ taken messages,
      Talking
        (holding endpoint (link.receive socket most now).link
          (link.receive socket most now).socket) peer
        (link.receive socket most now).socket
        (link.receive socket most now).link taken part posts sents
        messages ∧
      Brought now posts sents receipts
        (link.receive socket most now).events sents messages := by
  have unchanged : ∃ taken messages,
      Talking (holding endpoint link socket) peer socket link taken part
        posts sents messages ∧
      Brought now posts sents receipts [] sents messages := by
    rw [talking.holds]
    exact ⟨consumed, receipts, talking, .quiet rfl⟩
  unfold Link.receive
  split
  · rename_i receiving
    obtain ⟨count, bound, messages, fed⟩ := talking.toChannel.feed most
    have spoken := talking.spoken.take most
    rw [List.append_assoc] at spoken
    -- A task that listens is owed no more than the reported commands.
    have listens : peer.commands ≤ sents :=
      talking.listening awake (by rw [receiving]; decide)
    have next : Talking
        (holding endpoint
          { link with
            intake := (link.intake.feed (socket.take most).1).1 }
          (socket.take most).2) peer (socket.take most).2
        { link with
          intake := (link.intake.feed (socket.take most).1).1 }
        (consumed ++ (socket.take most).1) part posts sents
        (receipts + count) :=
      { talking.toChannel with
        spoken := spoken
        received := fed
        heard := talking.heard.take most
        stream := talking.stream
        met := rfl
        linked := rfl
        fits := talking.fits
        stopped := talking.stopped }
    dsimp only
    rw [messages, actOn_messages]
    have ended := Talking.meetEnd
      (LinkStep.mk
        { link with
          intake := (link.intake.feed (socket.take most).1).1 }
        (socket.take most).2
        (List.replicate count (.received acknowledgment now))) next
    refine ⟨_, receipts + count, ended.1, .received count ?_ (by omega)⟩
    rw [ended.2]
    exact traffic_replicate count acknowledgment now
  · exact unchanged

theorem Talking.stopReceiving (talking : Talking endpoint peer socket link
      consumed part posts sents receipts) :
    Talking (holding endpoint link.stopReceiving socket) peer socket
      link.stopReceiving consumed part posts sents receipts := by
  unfold Link.stopReceiving
  split
  · exact talking.deafen talking.polite
  · rw [talking.holds]
    exact talking

/-- A sending task is never called off while it is listened to: what calls it
off ends it too. -/
theorem Talking.stopSending (talking : Talking endpoint peer socket link
      consumed part posts sents receipts) (awake : endpoint.halted = false) :
    link.stopSending socket =
      { link := link
        socket := socket } := by
  unfold Link.stopSending
  rw [if_neg]
  rintro ⟨cancelled, waiting⟩
  rcases talking.stopped cancelled with ended | halted
  · rw [waiting] at ended
    cases ended
  · rw [awake] at halted
    cases halted

/-! ### Calls -/

theorem Fits.more {transport : Transport} {waiting most : Nat} {deaf : Prop}
    {sending : Sending}
    (fits : Fits transport part waiting posts sents deaf sending)
    (more : posts ≤ most) :
    Fits transport part waiting most sents deaf sending := by
  cases sending with
  | waiting =>
      obtain ⟨nothing, within⟩ := fits
      exact ⟨nothing, by omega⟩
  | writing payload unsent =>
      obtain ⟨same, some, whole, within⟩ := fits
      exact ⟨same, some, whole, by omega⟩
  | ended =>
      obtain ⟨within, begun⟩ := fits
      refine ⟨by omega, fun some => ?_⟩
      obtain ⟨further, deaf⟩ := begun some
      exact ⟨by omega, deaf⟩

theorem Talking.more (talking : Talking endpoint peer socket link consumed
      part posts sents receipts) {most : Nat} (more : posts ≤ most) :
    Talking endpoint peer socket link consumed part most sents receipts :=
  { talking with
    bounded := Nat.le_trans talking.bounded more
    fits := talking.fits.more more }

theorem Talking.arm (talking : Talking endpoint peer socket link consumed
      part posts sents receipts) :
    Talking (holding endpoint link.arm socket) peer socket link.arm consumed
      part posts sents receipts := by
  have unchanged : Talking (holding endpoint link socket) peer socket link
      consumed part posts sents receipts := by
    rw [talking.holds]
    exact talking
  unfold Link.arm
  split
  · exact unchanged
  · split
    · rename_i parked
      exact
        { talking.toChannel with
          listening := by
            intro awake _
            exact talking.listening awake (by rw [parked]; decide)
          met := rfl
          linked := rfl
          fits := talking.fits.imp
            (fun deaf => by
              rcases deaf with finished | halted | ended
              · exact .inl finished
              · exact .inr (.inl halted)
              · rw [parked] at ended
                cases ended)
          stopped := talking.stopped }
    · exact unchanged

theorem Talking.post (talking : Talking endpoint peer socket link consumed
      part posts sents receipts) :
    Talking (holding endpoint (link.post command).1 socket) peer socket
        (link.post command).1 consumed part (posts + 1) sents receipts ∧
      (link.post command).2.filter isTraffic = [] := by
  have more := talking.more (Nat.le_succ posts)
  unfold Link.post
  split
  · refine ⟨?_, rfl⟩
    rw [talking.holds]
    exact more
  · rename_i taken
    refine ⟨?_, rfl⟩
    have fits := talking.fits
    refine
      { more.toChannel with
        outbox := ?_
        met := rfl
        linked := rfl
        fits := ?_
        stopped := talking.stopped }
    · intro payload member
      rcases List.mem_append.mp member with early | last
      · exact talking.outbox payload early
      · exact List.mem_singleton.mp last
    · cases sending : link.sending with
      | waiting =>
          rw [sending] at fits
          obtain ⟨nothing, within⟩ := fits
          refine ⟨nothing, ?_⟩
          simp only [List.length_append, List.length_singleton]
          omega
      | writing payload unsent =>
          rw [sending] at fits
          obtain ⟨same, some, whole, within⟩ := fits
          refine ⟨same, some, whole, ?_⟩
          simp only [List.length_append, List.length_singleton]
          omega
      | ended => exact absurd (.inr sending) taken

theorem Talking.close (talking : Talking endpoint peer socket link consumed
      part posts sents receipts) :
    Talking (holding endpoint link.close socket) peer socket link.close
      consumed part posts sents receipts := by
  unfold Link.close
  split
  · rw [talking.holds]
    exact talking
  · exact
      { talking.toChannel with
        outbox := by
          intro payload member
          cases member
        listening := by
          intro _ listens
          exact absurd rfl listens
        met := rfl
        linked := rfl
        fits := talking.fits.ended (.inr (.inr rfl))
        stopped := by
          intro _
          exact .inl rfl }

/-- Without a runtime nothing that is called off waits to notice it. -/
theorem Talking.halt (talking : Talking endpoint peer socket link consumed
      part posts sents receipts) :
    Talking endpoint.cancelSession.halt peer socket
      { link with cancelled := true }.halt consumed part posts sents
      receipts where
  settled := rfl
  called _ := rfl
  sameTransport := talking.sameTransport
  spoken := talking.spoken
  received := talking.received
  heard := talking.heard
  stream := talking.stream
  proper := talking.proper
  outbox := by
    intro payload member
    cases member
  bounded := talking.bounded
  listening := by
    intro awake
    cases awake
  polite := talking.polite
  met := talking.met
  linked := by
    unfold Endpoint.cancelSession Endpoint.halt
    rw [talking.linked]
    rfl
  fits := talking.fits.ended (.inr (.inl rfl))
  stopped _ := .inl rfl

end Turns

end LatencyBench.Loop

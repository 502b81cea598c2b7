/-
The steps of the simulated peer on a stream that it shares with a session: it
reads, has bytes of its own arrive, meets the end of the stream, and lets go.
-/

import LatencyBench.Proofs.Loop.Turns

namespace LatencyBench.Loop

open Http Net WebSocket

variable {transport : Transport} {peer : Peer} {socket : Socket}
  {taken : List UInt8}

theorem take_onward {α : Type} (items : List α) (count most : Nat) :
    items.take count ++ (items.drop count).take most =
      items.take (count + ((items.drop count).take most).length) := by
  rw [List.take_add]
  congr 1
  exact List.prefix_iff_eq_take.mp (List.take_prefix most _)

theorem length_take_drop_le {α : Type} (items : List α) (count most : Nat)
    (within : count ≤ items.length) :
    count + ((items.drop count).take most).length ≤ items.length := by
  rw [List.length_take, List.length_drop]
  omega

/-! ### Reading -/

theorem Heard.onward (heard : Heard transport peer socket)
    (going : peer.isOver = false) (most : Nat) :
    peer.feed (socket.collect most).1 =
      { (Peer.start transport peer.choices).feed
          (socket.outbound.take (socket.collect most).2.collected) with
        delivered := peer.delivered } := by
  have reads := heard.reads going
  have fed : peer.feed (socket.collect most).1 =
      { (Peer.start transport peer.choices).feed
          (socket.outbound.take socket.collected ++
            (socket.collect most).1) with
        delivered := peer.delivered } := by
    rw [Peer.feed_append, ← Peer.feed_delivered, ← reads]
  rw [fed]
  unfold Socket.collect Socket.inTransit
  dsimp only
  rw [take_onward]

theorem Heard.collect (heard : Heard transport peer socket) (most : Nat) :
    Heard transport (peer.feed (socket.collect most).1)
      (socket.collect most).2 := by
  have grew := peer.grew_feed (socket.collect most).1
  have before (going : (peer.feed (socket.collect most).1).isOver = false) :
      peer.isOver = false := by
    cases finished : peer.isOver with
    | false => rfl
    | true =>
        rw [grew.ended finished, finished] at going
        cases going
  refine
    { within := length_take_drop_le _ _ most heard.within
      present := fun going => heard.present (before going)
      reads := ?_ }
  intro going
  rw [grew.delivered, grew.choices]
  exact heard.onward (before going) most

theorem Spoken.feed (spoken : Spoken transport peer socket taken)
    (bytes : List UInt8)
    (said : (peer.feed bytes).written = transport.opening peer.choices ++
      series (transport.acknowledgmentBytes peer.choices)
        (peer.feed bytes).commands) :
    Spoken transport (peer.feed bytes) socket taken := by
  have grew := peer.grew_feed bytes
  refine
    { said := by rw [grew.choices]; exact said
      within := ?_
      arrived := ?_
      ended := ?_ }
  · rw [grew.delivered]
    exact Nat.le_trans spoken.within grew.written.length_le
  · obtain ⟨more, longer⟩ := grew.written
    rw [grew.delivered, ← longer,
      List.take_append_of_le_length spoken.within]
    exact spoken.arrived
  · intro some
    obtain ⟨finished, all⟩ := spoken.ended some
    rw [grew.ended finished]
    exact ⟨finished, all⟩

/-! ### Bytes of the peer arrive -/

/-- What arrives changes nothing of what was sent. -/
theorem arrive_frame (socket : Socket) (bytes : List UInt8) :
    (socket.arrive bytes).outbound = socket.outbound ∧
      (socket.arrive bytes).collected = socket.collected ∧
      (socket.arrive bytes).farEnd = socket.farEnd := by
  unfold Socket.arrive
  cases socket.ending <;> exact ⟨rfl, rfl, rfl⟩

theorem Heard.deliver (heard : Heard transport peer socket) (most : Nat) :
    Heard transport (peer.deliver most).2
      (socket.arrive (peer.deliver most).1) := by
  obtain ⟨outbound, collected, farEnd⟩ :=
    arrive_frame socket (peer.deliver most).1
  refine
    { within := by rw [outbound, collected]; exact heard.within
      present := by rw [farEnd]; exact heard.present
      reads := ?_ }
  intro going
  rw [outbound, collected]
  exact congrArg
    (fun other : Peer =>
      { other with delivered := (peer.deliver most).2.delivered })
    (heard.reads going)

theorem Spoken.deliver (spoken : Spoken transport peer socket taken)
    (most : Nat) :
    Spoken transport (peer.deliver most).2
      (socket.arrive (peer.deliver most).1) taken := by
  have onward := take_onward peer.written peer.delivered most
  have within := length_take_drop_le peer.written peer.delivered most
    spoken.within
  unfold Peer.deliver Peer.inTransit Socket.arrive
  cases ending : socket.ending with
  | none =>
      refine
        { said := spoken.said
          within := within
          arrived := ?_
          ended := ?_ }
      · dsimp only
        rw [← List.append_assoc, spoken.arrived]
        exact onward
      · intro some
        exact absurd rfl some
  | some reached =>
      obtain ⟨finished, all⟩ := spoken.ended (by rw [ending]; simp)
      have nothing :
          ((peer.written.drop peer.delivered).take most).length = 0 := by
        rw [List.length_take, List.length_drop]
        omega
      refine
        { said := spoken.said
          within := within
          arrived := ?_
          ended := ?_ }
      · dsimp only
        rw [nothing, Nat.add_zero]
        exact spoken.arrived
      · intro _
        refine ⟨finished, ?_⟩
        dsimp only
        rw [nothing, Nat.add_zero]
        exact all

/-! ### The end -/

theorem Heard.hangUp (heard : Heard transport peer socket)
    (finished : peer.isOver = true) : Heard transport peer socket.hangUp where
  within := heard.within
  present := by
    intro going
    rw [finished] at going
    cases going
  reads := heard.reads

theorem Spoken.hangUp (spoken : Spoken transport peer socket taken)
    (finished : peer.isOver = true) (arrived : peer.inTransit = []) :
    Spoken transport peer socket.hangUp taken where
  said := spoken.said
  within := spoken.within
  arrived := spoken.arrived
  ended := by
    intro _
    have all := List.drop_eq_nil_iff.mp arrived
    exact ⟨finished, Nat.le_antisymm spoken.within all⟩

/-- A peer after it has met the end of the stream.  `more` is one if a last
line without its line feed has counted as a command. -/
structure Parted (transport : Transport) (count more : Nat)
    (before after : Peer) : Prop where
  finished : after.isOver = true
  commands : after.commands = count + more
  choices : after.choices = before.choices
  said : after.written = transport.opening before.choices ++
    series (transport.acknowledgmentBytes before.choices) (count + more)
  longer : before.written <+: after.written
  delivered : after.delivered = before.delivered
  atMost : more ≤ 1
  rested : before.conversation = Peer.resting transport ∨
      before.conversation =
        (Peer.start transport before.choices).conversation →
    more = 0

theorem parted {count : Nat} (met : peer.Met transport peer.choices count) :
    ∃ more, Parted transport count more peer (peer.meetEnd .finished) := by
  -- Only a line that has begun counts; all others end without a word.
  have quietly (conversation : Conversation)
      (finished : (peer.goOn conversation).isOver = true)
      (ended : peer.meetEnd .finished = peer.goOn conversation) :
      Parted transport count 0 peer (peer.meetEnd .finished) := by
    rw [ended]
    exact
      { finished := finished
        commands := met.commands
        choices := rfl
        said := met.written
        longer := List.prefix_refl _
        delivered := rfl
        atMost := Nat.zero_le 1
        rested := fun _ => rfl }
  cases reading : peer.conversation with
  | lines line =>
      cases line with
      | nil =>
          exact ⟨0, quietly .over rfl (by simp only [Peer.meetEnd, reading])⟩
      | cons byte rest =>
          let between := peer.goOn (.lines [])
          have same : between.goOn (.lines (byte :: rest)) = peer :=
            Peer.goOn_same reading
          cases text : Utf8.isValid (byte :: rest) with
          | false =>
              have ended : (between.goOn _).meetEnd .finished = _ :=
                Peer.meetEnd_broken (List.cons_ne_nil byte rest) text
              rw [same] at ended
              exact ⟨0, quietly _ rfl ended⟩
          | true =>
              have ended : (between.goOn _).meetEnd .finished = _ :=
                Peer.meetEnd_text (List.cons_ne_nil byte rest) text rfl
              have answered : between.answerCommand.Met _ _ _ :=
                (met.goOn rfl).answerCommand
              have grew := between.grew_answerCommand rfl
              rw [same] at ended
              rw [ended]
              exact
                ⟨1,
                  { finished := rfl
                    commands := answered.commands
                    choices := answered.sameChoices
                    said := answered.written
                    longer := grew.written
                    delivered := grew.delivered
                    atMost := Nat.le_refl 1
                    rested := by
                      rw [reading]
                      rintro (rests | joins)
                      · cases transport <;> cases rests
                      · cases transport <;> cases joins }⟩
  | invited reader =>
      exact ⟨0, quietly (.failed (.handshake UpgradeError.unfinished.message))
        rfl (by simp only [Peer.meetEnd, reading])⟩
  | messages receiver =>
      exact ⟨0, quietly .over rfl (by simp only [Peer.meetEnd, reading])⟩
  | _ =>
      have going := met.going
      rw [Peer.isOver, reading] at going
      cases going

theorem meetEnd_of_over (finished : peer.isOver = true) (ending : StreamEnd) :
    peer.meetEnd ending = peer := by
  unfold Peer.meetEnd
  cases conversation : peer.conversation with
  | lines line => simp [Peer.isOver, conversation] at finished
  | invited reader => simp [Peer.isOver, conversation] at finished
  | messages receiver => simp [Peer.isOver, conversation] at finished
  | _ => rfl

theorem Spoken.part {after : Peer} {count more : Nat}
    (spoken : Spoken transport peer socket taken)
    (parts : Parted transport count more peer after)
    (going : peer.isOver = false) : Spoken transport after socket taken where
  said := by
    rw [parts.said, parts.commands, parts.choices]
  within := by
    rw [parts.delivered]
    exact Nat.le_trans spoken.within parts.longer.length_le
  arrived := by
    obtain ⟨last, longer⟩ := parts.longer
    rw [parts.delivered, ← longer,
      List.take_append_of_le_length spoken.within]
    exact spoken.arrived
  ended := by
    intro some
    obtain ⟨finished, _⟩ := spoken.ended some
    rw [going] at finished
    cases finished

theorem Heard.part {after : Peer} {count more : Nat}
    (heard : Heard transport peer socket)
    (parts : Parted transport count more peer after) :
    Heard transport after socket where
  within := heard.within
  present := by
    intro going
    rw [parts.finished] at going
    cases going
  reads := by
    intro going
    rw [parts.finished] at going
    cases going

/-! ### The steps on a connection -/

section Talking

variable {endpoint : Endpoint} {link : Link} {consumed part : List UInt8}
  {posts sents receipts : Nat}

theorem Fits.within {waiting : Nat} {deaf : Prop} {sending : Sending}
    (fits : Fits transport part waiting posts sents deaf sending) :
    sents ≤ posts := by
  cases sending with
  | waiting =>
      obtain ⟨_, within⟩ := fits
      omega
  | writing payload unsent =>
      obtain ⟨_, _, _, within⟩ := fits
      omega
  | ended => exact fits.1

/-- A peer that reads has counted no more commands than were reported. -/
theorem Talking.reading (talking : Talking endpoint peer socket link consumed
      part posts sents receipts) (going : peer.isOver = false) (most : Nat) :
    ∃ whole, whole ≤ sents ∧
      (peer.feed (socket.collect most).1).Met endpoint.transport
        peer.choices whole := by
  have onward := talking.heard.onward going most
  have seen : socket.outbound.take (socket.collect most).2.collected <+:
      endpoint.transport.greeting peer.choices ++
        (repeated endpoint.transport.commandBytes sents ++ part) := by
    rw [← talking.stream going]
    exact List.take_prefix _ _
  obtain ⟨whole, bound, met⟩ := Peer.feed_of_commands talking.proper seen
  refine ⟨whole, bound, ?_⟩
  rw [onward]
  exact
    { sameTransport := met.sameTransport
      sameChoices := met.sameChoices
      going := met.going
      commands := met.commands
      frames := met.frames
      written := met.written }

theorem Talking.peerReads (talking : Talking endpoint peer socket link
      consumed part posts sents receipts) (most : Nat) :
    Talking (holding endpoint link (socket.collect most).2)
      (peer.feed (socket.collect most).1) (socket.collect most).2 link
      consumed part posts sents receipts := by
  have heard := talking.heard.collect most
  have grew := peer.grew_feed (socket.collect most).1
  cases finished : peer.isOver with
  | true =>
      have same := grew.ended finished
      rw [same] at heard ⊢
      exact
        { talking.toChannel with
          spoken :=
            { said := talking.spoken.said
              within := talking.spoken.within
              arrived := talking.spoken.arrived
              ended := talking.spoken.ended }
          heard := heard
          stream := talking.stream
          met := rfl
          linked := rfl
          fits := talking.fits
          stopped := talking.stopped }
  | false =>
      obtain ⟨whole, bound, met⟩ := talking.reading finished most
      have spoken := talking.spoken.feed (socket.collect most).1
        (by rw [met.written, met.commands])
      have within := talking.fits.within
      exact
        { talking.toChannel with
          spoken :=
            { said := spoken.said
              within := spoken.within
              arrived := by
                rw [grew.choices]
                exact spoken.arrived
              ended := spoken.ended }
          heard := heard
          stream := by
            intro _
            rw [grew.choices]
            exact talking.stream finished
          bounded := by
            rw [met.commands]
            omega
          listening := by
            intro _ _
            rw [met.commands]
            exact bound
          met := rfl
          linked := rfl
          fits := talking.fits.imp
            (fun deaf => by
              rcases deaf with already | lost
              · rw [finished] at already
                cases already
              · exact .inr lost)
          stopped := talking.stopped }

theorem Talking.peerReaches (talking : Talking endpoint peer socket link
      consumed part posts sents receipts) (most : Nat) :
    Talking
      (holding endpoint link (socket.arrive (peer.deliver most).1))
      (peer.deliver most).2 (socket.arrive (peer.deliver most).1) link
      consumed part posts sents receipts := by
  have outbound := (arrive_frame socket (peer.deliver most).1).1
  exact
    { talking.toChannel with
      spoken := talking.spoken.deliver most
      heard := talking.heard.deliver most
      stream := by
        intro going
        rw [outbound]
        exact talking.stream going
      bounded := talking.bounded
      listening := talking.listening
      met := rfl
      linked := rfl
      fits := talking.fits
      stopped := talking.stopped }

/-- The peer meets the end once the sending task has ended.  If that was
inside a command, what was written of it may count, but its acknowledgment is
lost. -/
theorem Talking.peerMeetsEnd (talking : Talking endpoint peer socket link
      consumed part posts sents receipts) (finished : link.outboundOver = true)
    (read : socket.inTransit = []) :
    Talking endpoint (peer.meetEnd .finished) socket link consumed part posts
      sents receipts := by
  cases going : peer.isOver with
  | true =>
      rw [meetEnd_of_over going]
      exact talking
  | false =>
      have ended : link.sending = .ended := by
        unfold Link.outboundOver at finished
        split at finished
        · exact of_decide_eq_true finished
        · exact (of_decide_eq_true finished).1
      have fits := talking.fits
      rw [ended] at fits
      obtain ⟨within, begun⟩ := fits
      have all : socket.outbound.take socket.collected = socket.outbound :=
        List.take_of_length_le (List.drop_eq_nil_iff.mp read)
      have reads := talking.heard.reads going
      rw [all, talking.stream going] at reads
      obtain ⟨whole, bound, met⟩ := talking.reading going 0
      have same : peer.feed (socket.collect 0).1 = peer := by
        unfold Socket.collect
        rfl
      rw [same] at met
      obtain ⟨more, parts⟩ := parted met
      -- Between two commands nothing more counts; inside one the rest of it
      -- may, but then the task that would report it has ended.
      have counted : more = 0 ∨ part ≠ [] := by
        by_cases nothing : part = []
        · left
          apply parts.rested
          left
          rw [reads, nothing, List.append_nil]
          exact (Peer.feed_commands endpoint.transport peer.choices sents).2
        · exact .inr nothing
      exact
        { talking with
          spoken := by
            rw [parts.choices]
            exact talking.spoken.part parts going
          heard := talking.heard.part parts
          stream := by
            intro still
            rw [parts.finished] at still
            cases still
          bounded := by
            rw [parts.commands]
            have atMost := parts.atMost
            rcases counted with none | some
            · omega
            · have further := (begun some).1
              omega
          listening := by
            intro awake listens
            rw [parts.commands]
            rcases counted with none | some
            · omega
            · rcases (begun some).2 with finished | halted | deaf
              · rw [going] at finished
                cases finished
              · rw [awake] at halted
                cases halted
              · exact absurd deaf listens
          fits := talking.fits.imp fun _ => .inl parts.finished }

theorem Talking.peerLeaves (talking : Talking endpoint peer socket link
      consumed part posts sents receipts) (finished : peer.isOver = true)
    (arrived : peer.inTransit = []) :
    Talking (holding endpoint link socket.hangUp) peer socket.hangUp link
      consumed part posts sents receipts :=
  { talking.toChannel with
    spoken := talking.spoken.hangUp finished arrived
    heard := talking.heard.hangUp finished
    stream := talking.stream
    met := rfl
    linked := rfl
    fits := talking.fits
    stopped := talking.stopped }

end Talking

end LatencyBench.Loop

/-
The accounts of a wire are kept by the turns of the session's tasks, by the
steps of the simulated peer, by the calls of the machine, and by everything
that the engine lets go of.
-/

import LatencyBench.Proofs.Loop.Accounts

namespace LatencyBench.Loop

open Http Net WebSocket

/-! ### Turns of the tasks -/

section Turns

variable {endpoint : Endpoint} {peer : Option Peer}
  {posts sents receipts : Nat}

theorem Accounted.onLink (now : Instant) {turn : Link → Socket → LinkStep}
    (accounted : Accounted endpoint peer posts sents receipts)
    (turns : ∀ {known : Peer} {socket : Socket} {link : Link}
      {consumed part : List UInt8},
      Talking endpoint known socket link consumed part posts sents receipts →
      ∃ taken more written messages,
        Talking
            (holding endpoint (turn link socket).link
              (turn link socket).socket) known
            (turn link socket).socket (turn link socket).link taken more
            posts written messages ∧
          Brought now posts sents receipts (turn link socket).events written
            messages) :
    KeepsAccounts now peer posts sents receipts (endpoint.onLink turn) := by
  have still := accounted.still now
  unfold Endpoint.onLink
  cases accounted with
  | alone _ _ unlinked _ =>
      rw [unlinked]
      exact still
  | greeting _ greets =>
      rw [greets.unlinked]
      exact still
  | talking talks =>
      obtain ⟨taken, more, written, messages, talking, brought⟩ :=
        turns talks
      rw [talks.linked, talks.met]
      exact ⟨written, messages, .talking talking, brought⟩

theorem Accounted.endAccepting (now : Instant)
    (accounted : Accounted endpoint peer posts sents receipts)
    {event : Event} (silent : isTraffic event = false)
    (going : endpoint.accepting ≠ .ended) :
    KeepsAccounts now peer posts sents receipts
      (endpoint.endAccepting event) := by
  cases accounted with
  | alone _ unmet unlinked called =>
      refine ⟨0, 0, .alone posts unmet unlinked called, .quiet ?_⟩
      rw [Endpoint.endAccepting,
        List.filter_cons_of_neg (by rw [silent]; decide)]
      rfl
  | greeting _ greets => exact greets.ends now posts silent
  | talking talks => exact absurd talks.settled going

theorem Accounted.accept (now : Instant)
    (accounted : Accounted endpoint peer posts sents receipts)
    (awake : endpoint.halted = false) :
    KeepsAccounts now peer posts sents receipts endpoint.accept := by
  have still := accounted.still now
  cases accounted with
  | alone _ unmet _ _ =>
      unfold Endpoint.accept
      rw [unmet]
      cases endpoint.accepting <;> exact still
  | greeting _ greets => exact greets.accept awake now posts
  | talking talks =>
      unfold Endpoint.accept
      rw [talks.settled]
      exact still

theorem Accounted.upgrade (now : Instant)
    (accounted : Accounted endpoint peer posts sents receipts)
    (awake : endpoint.halted = false) :
    KeepsAccounts now peer posts sents receipts endpoint.upgrade := by
  have still := accounted.still now
  cases accounted with
  | alone _ unmet _ _ =>
      unfold Endpoint.upgrade
      rw [unmet]
      cases endpoint.accepting <;> exact still
  | greeting _ greets => exact greets.upgrade awake now posts
  | talking talks =>
      unfold Endpoint.upgrade
      rw [talks.settled]
      exact still

def isTurn : EndpointStep → Bool
  | .connect _ => false
  | .arrive _ => false
  | .finish => false
  | .hangUp => false
  | .reset => false
  | _ => true

theorem turn_eq (now : Instant) {step : EndpointStep}
    (own : isTurn step = true) :
    endpoint.turn now step =
      if endpoint.halted then (endpoint, [])
      else endpoint.taskTurn now step := by
  cases step <;> cases own <;> rfl

/-- Every turn of a task keeps the accounts. -/
theorem Accounted.turn (now : Instant)
    (accounted : Accounted endpoint peer posts sents receipts)
    {step : EndpointStep} (own : isTurn step = true) :
    KeepsAccounts now peer posts sents receipts (endpoint.turn now step) := by
  have still := accounted.still now
  rw [turn_eq now own]
  cases halted : endpoint.halted with
  | true => exact still
  | false =>
      cases step with
      | connect _ => cases own
      | arrive _ => cases own
      | finish => cases own
      | hangUp => cases own
      | reset => cases own
      | accept => exact accounted.accept now halted
      | upgrade => exact accounted.upgrade now halted
      | acceptFails error =>
          change KeepsAccounts now peer posts sents receipts
            (endpoint.acceptFails error)
          unfold Endpoint.acceptFails
          cases accepting : endpoint.accepting with
          | waiting =>
              exact accounted.endAccepting now rfl
                (by rw [accepting]; exact nofun)
          | upgrading _ => exact still
          | ended => exact still
      | giveUpAccepting =>
          change KeepsAccounts now peer posts sents receipts
            endpoint.giveUpAccepting
          unfold Endpoint.giveUpAccepting
          split
          · rename_i calledOff
            exact accounted.endAccepting now rfl calledOff.1
          · exact still
      | receive most =>
          apply accounted.onLink now
          intro known socket link consumed part talks
          obtain ⟨taken, messages, talking, brought⟩ :=
            talks.receive halted most now
          exact ⟨taken, part, sents, messages, talking, brought⟩
      | stopReceiving =>
          apply accounted.onLink now
          intro known socket link consumed part talks
          exact ⟨consumed, part, sents, receipts, talks.stopReceiving,
            .quiet rfl⟩
      | send room =>
          apply accounted.onLink now
          intro known socket link consumed part talks
          obtain ⟨more, written, talking, brought⟩ :=
            talks.send halted room now
          exact ⟨consumed, more, written, receipts, talking, brought⟩
      | stopSending =>
          apply accounted.onLink now
          intro known socket link consumed part talks
          rw [talks.stopSending halted]
          refine ⟨consumed, part, sents, receipts, ?_, .quiet rfl⟩
          rw [talks.holds]
          exact talks

end Turns

/-! ### Calls -/

section Calls

variable {endpoint : Endpoint} {peer : Option Peer}
  {posts sents receipts : Nat}

theorem Accounted.more
    (accounted : Accounted endpoint peer posts sents receipts) {most : Nat}
    (more : posts ≤ most) : Accounted endpoint peer most sents receipts := by
  cases accounted with
  | alone _ unmet unlinked called => exact .alone most unmet unlinked called
  | greeting _ greets => exact .greeting most greets
  | talking talks => exact .talking (talks.more more)

/-- A command that is posted is one more, whether or not the connection takes
it. -/
theorem Accounted.post (accounted : Accounted endpoint peer posts sents
      receipts) (connection : Connection) :
    Accounted (endpoint.perform (connection.does (.send command))).1 peer
        (posts + 1) sents receipts ∧
      (endpoint.perform (connection.does (.send command))).2.filter
        isTraffic = [] := by
  have more := accounted.more (Nat.le_succ posts)
  unfold Endpoint.perform
  cases accounted with
  | alone _ _ unlinked _ =>
      rw [unlinked]
      exact ⟨more, rfl⟩
  | greeting _ greets =>
      rw [greets.unlinked]
      exact ⟨more, rfl⟩
  | talking talks =>
      obtain ⟨talking, quiet⟩ := talks.post
      rw [talks.linked]
      dsimp only
      split
      · unfold holding at talking
        rw [← talks.met] at talking
        exact ⟨.talking talking, quiet⟩
      · exact ⟨more, rfl⟩

theorem Accounted.perform (accounted : Accounted endpoint peer posts sents
      receipts) (made : ConnectionCall)
    (other : ∀ payload, made.call ≠ .send payload) :
    Accounted (endpoint.perform made).1 peer posts sents receipts ∧
      (endpoint.perform made).2.filter isTraffic = [] := by
  have still := accounted
  unfold Endpoint.perform
  cases accounted with
  | alone _ _ unlinked _ =>
      rw [unlinked]
      exact ⟨still, rfl⟩
  | greeting _ greets =>
      rw [greets.unlinked]
      exact ⟨still, rfl⟩
  | talking talks =>
      rw [talks.linked]
      dsimp only
      split
      · have armed := talks.arm
        have closed := talks.close
        unfold holding at armed closed
        rw [← talks.met] at armed closed
        cases call : made.call with
        | arm => exact ⟨.talking armed, rfl⟩
        | send payload => exact absurd call (other payload)
        | close => exact ⟨.talking closed, rfl⟩
        | drop => exact ⟨.talking closed, rfl⟩
      · exact ⟨still, rfl⟩

theorem Accounted.cancelAccept
    (accounted : Accounted endpoint peer posts sents receipts) :
    Accounted endpoint.cancelAccept peer posts sents receipts := by
  cases accounted with
  | alone _ unmet unlinked called => exact .alone posts unmet unlinked called
  | greeting _ greets => exact .greeting posts { greets with }
  | talking talks => exact .talking { talks with }

/-- Without a runtime every task has ended, and nothing that is called off
waits to notice it. -/
theorem Accounted.halt
    (accounted : Accounted endpoint peer posts sents receipts) :
    Accounted endpoint.cancelSession.halt peer posts sents receipts := by
  cases accounted with
  | alone _ unmet unlinked _ =>
      refine .alone posts unmet ?_ fun _ => rfl
      unfold Endpoint.cancelSession Endpoint.halt
      rw [unlinked]
      rfl
  | greeting _ greets =>
      refine .greeting posts
        { greets with
          unlinked := ?_
          called := fun _ => rfl
          attended := fun other => absurd rfl other
          waiting := ?_
          upgrading := ?_ }
      · unfold Endpoint.cancelSession Endpoint.halt
        rw [greets.unlinked]
        rfl
      · intro impossible
        cases impossible
      · intro upgrade impossible
        cases impossible
  | talking talks => exact .talking talks.halt

end Calls

/-! ### Steps of the peer -/

section Peer

variable {peer : Peer} {socket : Socket} {endpoint : Endpoint}
  {taken : List UInt8} {posts sents receipts : Nat}

theorem Greeting.peerReads (greeting : Greeting endpoint peer socket taken)
    (most : Nat) :
    socket.collect most = ([], socket) := by
  have nothing : socket.inTransit = [] := by
    unfold Socket.inTransit
    rw [greeting.silent]
    exact List.drop_nil
  unfold Socket.collect
  rw [nothing, List.take_nil]
  rfl

theorem Greeting.peerReaches (greeting : Greeting endpoint peer socket taken)
    (most : Nat) :
    Greeting
      { endpoint with
        socket := some (socket.arrive (peer.deliver most).1) }
      (peer.deliver most).2 (socket.arrive (peer.deliver most).1) taken := by
  have outbound := (arrive_frame socket (peer.deliver most).1).1
  exact
    { greeting with
      met := rfl
      spoken := greeting.spoken.deliver most
      heard := greeting.heard.deliver most
      silent := by
        rw [outbound]
        exact greeting.silent
      uncounted := greeting.uncounted
      attended := greeting.attended }

/-- A peer that was never greeted ends without having counted a command. -/
theorem Greeting.peerMeetsEnd (greeting : Greeting endpoint peer socket taken)
    (ended : endpoint.accepting = .ended) :
    Greeting endpoint (peer.meetEnd .finished) socket taken := by
  cases going : peer.isOver with
  | true =>
      rw [meetEnd_of_over going]
      exact greeting
  | false =>
      have reads := greeting.heard.reads going
      rw [greeting.silent, List.take_nil] at reads
      have joined := Peer.met_joined endpoint.transport peer.choices
      have met : peer.Met endpoint.transport peer.choices 0 := by
        rw [reads]
        exact
          { sameTransport := joined.sameTransport
            sameChoices := joined.sameChoices
            going := joined.going
            commands := joined.commands
            frames := joined.frames
            written := joined.written }
      obtain ⟨more, parts⟩ := parted met
      have none : more = 0 := by
        apply parts.rested
        right
        rw [reads]
        rfl
      exact
        { greeting with
          spoken := greeting.spoken.part parts going
          heard := greeting.heard.part parts
          uncounted := by
            rw [parts.commands, none]
          attended := fun other => absurd ended other }

theorem Greeting.peerLeaves (greeting : Greeting endpoint peer socket taken)
    (finished : peer.isOver = true) (arrived : peer.inTransit = []) :
    Greeting { endpoint with socket := some socket.hangUp } peer
      socket.hangUp taken :=
  { greeting with
    met := rfl
    spoken := greeting.spoken.hangUp finished arrived
    heard := greeting.heard.hangUp finished
    silent := greeting.silent }

end Peer

/-! ### Steps of the wire -/

section Wire

variable {wire : Wire} {posts sents receipts : Nat}

/-- What happens between the peer and the socket keeps the accounts if it
does so before and after the connection is handed over. -/
theorem Accounted.between {change : Peer → Socket → Peer × Socket}
    (accounted : Accounted wire.endpoint wire.peer posts sents receipts)
    (greets : ∀ {peer : Peer} {socket : Socket} {taken : List UInt8},
      Greeting wire.endpoint peer socket taken →
      Greeting
        { wire.endpoint with socket := some (change peer socket).2 }
        (change peer socket).1 (change peer socket).2 taken)
    (talks : ∀ {peer : Peer} {socket : Socket} {link : Link}
      {consumed part : List UInt8},
      Talking wire.endpoint peer socket link consumed part posts sents
        receipts →
      Talking (holding wire.endpoint link (change peer socket).2)
        (change peer socket).1 (change peer socket).2 link consumed part
        posts sents receipts) :
    Accounted (wire.between change).endpoint (wire.between change).peer posts
      sents receipts := by
  rcases wire with ⟨endpoint, peer, now⟩
  have still := accounted
  unfold Wire.between
  dsimp only at accounted still ⊢
  cases accounted with
  | alone _ _ _ _ => exact still
  | greeting _ greeting =>
      rw [greeting.met]
      exact .greeting posts (greets greeting)
  | talking talking =>
      have next := talks talking
      unfold holding at next
      rw [← talking.linked] at next
      rw [talking.met]
      exact .talking next

theorem Accounted.peerReads (most : Nat)
    (accounted : Accounted wire.endpoint wire.peer posts sents receipts) :
    Accounted (wire.peerReads most).endpoint (wire.peerReads most).peer posts
      sents receipts := by
  refine accounted.between (fun greeting => ?_)
    (fun talking => talking.peerReads most)
  rw [greeting.peerReads most]
  rw [← greeting.met]
  exact greeting

theorem Accounted.peerReaches (most : Nat)
    (accounted : Accounted wire.endpoint wire.peer posts sents receipts) :
    Accounted (wire.peerReaches most).endpoint (wire.peerReaches most).peer
      posts sents receipts :=
  accounted.between (fun greeting => greeting.peerReaches most)
    (fun talking => talking.peerReaches most)

theorem Accounted.peerMeetsEnd
    (accounted : Accounted wire.endpoint wire.peer posts sents receipts) :
    Accounted wire.peerMeetsEnd.endpoint wire.peerMeetsEnd.peer posts sents
      receipts := by
  unfold Wire.peerMeetsEnd
  by_cases finished : wire.endpoint.outboundOver
  · rw [if_pos finished]
    unfold Endpoint.outboundOver at finished
    refine accounted.between (fun greeting => ?_) (fun talking => ?_)
    · rw [greeting.unlinked] at finished
      split
      · have next := greeting.peerMeetsEnd (of_decide_eq_true finished)
        rw [← greeting.met]
        exact next
      · rw [← greeting.met]
        exact greeting
    · rw [talking.linked] at finished
      split
      · rename_i read
        rw [talking.holds]
        exact talking.peerMeetsEnd finished (List.isEmpty_iff.mp read)
      · rw [talking.holds]
        exact talking
  · rw [if_neg finished]
    exact accounted

theorem Accounted.peerLeaves
    (accounted : Accounted wire.endpoint wire.peer posts sents receipts) :
    Accounted wire.peerLeaves.endpoint wire.peerLeaves.peer posts sents
      receipts := by
  refine accounted.between (fun greeting => ?_) (fun talking => ?_)
  · split
    · rename_i through
      obtain ⟨finished, arrived⟩ := Bool.and_eq_true_iff.mp through
      exact greeting.peerLeaves finished (List.isEmpty_iff.mp arrived)
    · rw [← greeting.met]
      exact greeting
  · split
    · rename_i through
      obtain ⟨finished, arrived⟩ := Bool.and_eq_true_iff.mp through
      exact talking.peerLeaves finished (List.isEmpty_iff.mp arrived)
    · rw [talking.holds]
      exact talking

theorem Accounted.peerJoins (choices : PeerChoices)
    (accounted : Accounted wire.endpoint wire.peer posts sents receipts) :
    Accounted (wire.peerJoins choices).endpoint (wire.peerJoins choices).peer
      posts sents receipts := by
  unfold Wire.peerJoins
  by_cases free : wire.endpoint.isListening ∧
      wire.endpoint.socket.isNone ∧ wire.peer.isNone
  · rw [if_pos free]
    obtain ⟨listening, unmet, nobody⟩ := free
    have connects : wire.endpoint.connect true =
        { wire.endpoint with
          socket := some .fresh
          addressKnown := true } := if_pos ⟨listening, unmet⟩
    rcases wire with ⟨endpoint, peer, now⟩
    dsimp only at accounted connects nobody ⊢
    rw [connects]
    cases accounted with
    | greeting _ _ => cases nobody
    | talking _ => cases nobody
    | alone _ _ unlinked called =>
        have waiting : endpoint.accepting = .waiting :=
          of_decide_eq_true (Bool.and_eq_true_iff.mp listening).1
        have joined := Peer.met_joined endpoint.transport choices
        have greets : Greeting
            { endpoint with
              socket := some .fresh
              addressKnown := true } (.start endpoint.transport choices)
            .fresh [] :=
          { met := rfl
            unlinked := unlinked
            called := called
            spoken :=
              { said := by
                  rw [joined.commands]
                  exact joined.written
                within := Nat.zero_le _
                arrived := rfl
                ended := fun some => absurd rfl some }
            heard :=
              { within := Nat.le_refl 0
                present := fun _ => rfl
                reads := fun _ => rfl }
            silent := rfl
            uncounted := joined.commands
            attended := fun _ => joined.going
            waiting := fun _ => rfl
            upgrading := by
              intro upgrade begun
              change endpoint.accepting = _ at begun
              rw [waiting] at begun
              cases begun }
        exact .greeting posts greets
  · rw [if_neg free]
    exact accounted

/-- Whether a step of a wire can happen while the far end is the simulated
peer: nobody else connects or does anything to the stream. -/
def isSimulated : WireStep → Bool
  | .endpoint step => isTurn step
  | _ => true

/-- Every step of a wire whose far end is the simulated peer keeps the
accounts. -/
theorem Accounted.step {step : WireStep} (simulated : isSimulated step = true)
    (accounted : Accounted wire.endpoint wire.peer posts sents receipts) :
    ∃ written messages,
      Accounted (wire.step step).1.endpoint (wire.step step).1.peer posts
          written messages ∧
        Brought wire.now posts sents receipts (wire.step step).2 written
          messages := by
  cases step with
  | pass span => exact ⟨sents, receipts, accounted, .quiet rfl⟩
  | endpoint step => exact accounted.turn wire.now simulated
  | peerJoins choices =>
      exact ⟨sents, receipts, accounted.peerJoins choices, .quiet rfl⟩
  | peerReads most =>
      exact ⟨sents, receipts, accounted.peerReads most, .quiet rfl⟩
  | peerReaches most =>
      exact ⟨sents, receipts, accounted.peerReaches most, .quiet rfl⟩
  | peerMeetsEnd =>
      exact ⟨sents, receipts, accounted.peerMeetsEnd, .quiet rfl⟩
  | peerLeaves => exact ⟨sents, receipts, accounted.peerLeaves, .quiet rfl⟩

end Wire

end LatencyBench.Loop

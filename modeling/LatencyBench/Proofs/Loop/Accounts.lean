/-
The accounts of a wire: wherever a session stands with the simulated peer,
every command and every acknowledgment is accounted for, and every step of the
wire, every call of the machine and everything that the engine lets go of
keeps it so.
-/

import LatencyBench.Proofs.Loop.PeerSteps

namespace LatencyBench.Loop

open Http Net WebSocket

/-! ### Before the connection is handed over -/

/-- A socket whose connection is not set up, or never will be.  The peer has
said its opening, and nothing has been said to it. -/
structure Greeting (endpoint : Endpoint) (peer : Peer) (socket : Socket)
    (taken : List UInt8) : Prop where
  met : endpoint.socket = some socket
  unlinked : endpoint.link = none
  called : endpoint.sessionCancelled = true → endpoint.halted = true
  spoken : Spoken endpoint.transport peer socket taken
  heard : Heard endpoint.transport peer socket
  silent : socket.outbound = []
  uncounted : peer.commands = 0
  attended : endpoint.accepting ≠ .ended → peer.isOver = false
  waiting : endpoint.accepting = .waiting → taken = []
  upgrading : ∀ upgrade, endpoint.accepting = .upgrading upgrade →
    endpoint.transport = .webSocket ∧
      scan RequestReader.step .beforeLine taken = .going upgrade.reader

section Greeting

variable {endpoint : Endpoint} {peer : Peer} {socket : Socket}
  {taken : List UInt8}

theorem Greeting.end (greeting : Greeting endpoint peer socket taken)
    (event : Event) :
    Greeting (endpoint.endAccepting event).1 peer socket taken :=
  { greeting with
    attended := fun other => absurd rfl other
    waiting := by
      intro impossible
      cases impossible
    upgrading := by
      intro upgrade impossible
      cases impossible }

/-- The connection is handed over once the opening has been taken and the
greeting said. -/
theorem Greeting.establish (greeting : Greeting endpoint peer socket taken)
    (awake : endpoint.halted = false) (after : Socket)
    (spoken : Spoken endpoint.transport peer after
      (endpoint.transport.opening peer.choices))
    (heard : Heard endpoint.transport peer after)
    (said : peer.isOver = false →
      after.outbound = endpoint.transport.greeting peer.choices) (posts : Nat) :
    Talking { endpoint with socket := some after }.establish.1 peer after
      { Link.start endpoint.transport with
        cancelled := endpoint.sessionCancelled } [] [] posts 0 0 where
  settled := rfl
  called := greeting.called
  sameTransport := rfl
  spoken := by
    have nothing : endpoint.transport.opening peer.choices ++ [] =
        endpoint.transport.opening peer.choices := List.append_nil _
    rw [← nothing] at spoken
    exact spoken
  received := rfl
  heard := heard
  stream := by
    intro going
    rw [said going]
    exact (List.append_nil _).symm
  proper := properPart_nil (commandBytes_ne_nil _)
  outbox := by
    intro payload member
    cases member
  bounded := by
    rw [greeting.uncounted]
    exact Nat.zero_le posts
  listening := by
    intro _ _
    exact Nat.le_of_eq greeting.uncounted
  polite := by
    intro answer
    exact Farewell.noConfusion
  met := rfl
  linked := rfl
  fits := ⟨rfl, Nat.zero_le posts⟩
  stopped := by
    intro cancelled
    have halted := greeting.called cancelled
    rw [awake] at halted
    cases halted

end Greeting

/-! ### Accounts -/

/-- Whether a wire accounts for the commands that were posted, those that were
reported as written and the messages that were received. -/
inductive Accounted (endpoint : Endpoint) :
    Option Peer → Nat → Nat → Nat → Prop where
  | alone (posts : Nat) (unmet : endpoint.socket = none)
      (unlinked : endpoint.link = none)
      (called : endpoint.sessionCancelled = true →
        endpoint.halted = true) :
      Accounted endpoint none posts 0 0
  | greeting {peer : Peer} {socket : Socket} {taken : List UInt8}
      (posts : Nat) (greets : Greeting endpoint peer socket taken) :
      Accounted endpoint (some peer) posts 0 0
  | talking {peer : Peer} {socket : Socket} {link : Link}
      {consumed part : List UInt8} {posts sents receipts : Nat}
      (talks : Talking endpoint peer socket link consumed part posts sents
        receipts) :
      Accounted endpoint (some peer) posts sents receipts

def commandsOf : Option Peer → Nat
  | none => 0
  | some peer => peer.commands

/-- The peer has counted no fewer commands than were answered, and no more
than were posted. -/
theorem Accounted.bounds {endpoint : Endpoint} {peer : Option Peer}
    {posts sents receipts : Nat}
    (accounted : Accounted endpoint peer posts sents receipts) :
    receipts ≤ commandsOf peer ∧ commandsOf peer ≤ posts := by
  cases accounted with
  | alone posts _ _ _ => exact ⟨Nat.le_refl 0, Nat.zero_le posts⟩
  | greeting posts greets =>
      refine ⟨Nat.zero_le _, ?_⟩
      rw [commandsOf, greets.uncounted]
      exact Nat.zero_le posts
  | talking talks =>
      refine ⟨?_, talks.bounded⟩
      obtain ⟨whole, bound, all⟩ :=
        Intake.feed_of_acknowledgments talks.spoken.acknowledgments
      rw [talks.received] at all
      have same := congrArg List.length all
      rw [List.length_replicate, List.length_replicate] at same
      rw [same]
      exact bound

/-- Something that an endpoint does within its accounts. -/
def KeepsAccounts (now : Instant) (peer : Option Peer)
    (posts sents receipts : Nat) (outcome : Endpoint × List Event) : Prop :=
  ∃ written messages,
    Accounted outcome.1 peer posts written messages ∧
      Brought now posts sents receipts outcome.2 written messages

theorem Accounted.still {endpoint : Endpoint} {peer : Option Peer}
    {posts sents receipts : Nat}
    (accounted : Accounted endpoint peer posts sents receipts)
    (now : Instant) :
    KeepsAccounts now peer posts sents receipts (endpoint, []) :=
  ⟨sents, receipts, accounted, .quiet rfl⟩

/-! ### Turns of the accepting task -/

section Accepting

variable {endpoint : Endpoint} {peer : Peer} {socket : Socket}
  {taken : List UInt8}

theorem Greeting.ends (greeting : Greeting endpoint peer socket taken)
    (now : Instant) (posts : Nat) {event : Event}
    (silent : isTraffic event = false) :
    KeepsAccounts now (some peer) posts 0 0 (endpoint.endAccepting event) := by
  refine ⟨0, 0, .greeting posts (greeting.end event), .quiet ?_⟩
  rw [Endpoint.endAccepting, List.filter_cons_of_neg (by rw [silent]; decide)]
  rfl

theorem Greeting.establishes (greeting : Greeting endpoint peer socket taken)
    (awake : endpoint.halted = false) (now : Instant) (posts : Nat)
    (after : Socket)
    (spoken : Spoken endpoint.transport peer after
      (endpoint.transport.opening peer.choices))
    (heard : Heard endpoint.transport peer after)
    (said : peer.isOver = false →
      after.outbound = endpoint.transport.greeting peer.choices) :
    KeepsAccounts now (some peer) posts 0 0
      { endpoint with socket := some after }.establish :=
  ⟨0, 0, .talking (greeting.establish awake after spoken heard said posts),
    .quiet rfl⟩

theorem Greeting.accept (greeting : Greeting endpoint peer socket taken)
    (awake : endpoint.halted = false) (now : Instant) (posts : Nat) :
    KeepsAccounts now (some peer) posts 0 0 endpoint.accept := by
  have still : Accounted endpoint (some peer) posts 0 0 :=
    .greeting posts greeting
  unfold Endpoint.accept
  rw [greeting.met]
  cases accepting : endpoint.accepting with
  | upgrading upgrade => exact still.still now
  | ended => exact still.still now
  | waiting =>
      have nothing := greeting.waiting accepting
      have going := greeting.attended (by rw [accepting]; decide)
      dsimp only
      by_cases unknown : !endpoint.addressKnown
      · rw [if_pos unknown]
        exact greeting.ends now posts rfl
      · rw [if_neg unknown]
        have spoken := greeting.spoken
        rw [nothing] at spoken
        split
        · rename_i kind
          have opening : endpoint.transport.opening peer.choices = [] := by
            rw [kind]
            rfl
          have unspoken : endpoint.transport.greeting peer.choices = [] := by
            rw [kind]
            rfl
          have same : { endpoint with socket := some socket } =
              endpoint := by
            rw [← greeting.met]
          have establishes := greeting.establishes awake now posts socket
          rw [same, opening, unspoken] at establishes
          exact establishes spoken greeting.heard fun _ => greeting.silent
        · rename_i kind
          have next : Greeting
              { endpoint with
                accepting := .upgrading .start
                socket := some socket } peer socket [] :=
            { met := rfl
              unlinked := greeting.unlinked
              called := greeting.called
              spoken := spoken
              heard := greeting.heard
              silent := greeting.silent
              uncounted := greeting.uncounted
              attended := fun _ => going
              waiting := by
                intro impossible
                cases impossible
              upgrading := by
                intro upgrade begun
                cases begun
                exact ⟨kind, rfl⟩ }
          exact ⟨0, 0, .greeting posts next, .quiet rfl⟩

/-- The opening in three parts: what has been taken, the next piece, and what
is still to come. -/
theorem Greeting.opening (greeting : Greeting endpoint peer socket taken)
    (most : Nat) :
    taken ++ (socket.take most).1 ++
        ((socket.take most).2.inbound ++
          peer.written.drop peer.delivered) =
      endpoint.transport.opening peer.choices := by
  have said := greeting.spoken.said
  rw [greeting.uncounted, series, List.append_nil] at said
  have arrived := (greeting.spoken.take most).arrived
  rw [← List.append_assoc, arrived, List.take_append_drop]
  exact said

theorem Greeting.agrees (greeting : Greeting endpoint peer socket taken)
    (awake : endpoint.halted = false) (now : Instant) (posts : Nat)
    (going : peer.isOver = false) {after : Socket}
    (spoken : Spoken endpoint.transport peer after
      (endpoint.transport.opening peer.choices))
    (heard : Heard endpoint.transport peer after)
    (silent : after.outbound = []) :
    KeepsAccounts now (some peer) posts 0 0
      (endpoint.agreeUpgrade after
        (endpoint.transport.greeting peer.choices)) := by
  have writes := wrote peer after
    (endpoint.transport.greeting peer.choices) heard.present
  have spoken := spoken.write writes
  have heard := heard.write writes
  unfold Endpoint.agreeUpgrade
  generalize after.write (endpoint.transport.greeting peer.choices) = outcome
    at writes spoken heard ⊢
  rcases outcome with ⟨result, last⟩
  cases result with
  | error error =>
      have finished := writes.refused error rfl
      rw [going] at finished
      cases finished
  | ok _ =>
      refine greeting.establishes awake now posts last spoken heard ?_
      intro _
      rw [writes.outbound going, silent]
      rfl

theorem Greeting.take (greeting : Greeting endpoint peer socket taken)
    (accepting : Accepting) (kind : endpoint.transport = .webSocket)
    (going : peer.isOver = false) (unwaiting : accepting ≠ .waiting)
    (onward : ∀ upgrade, accepting = .upgrading upgrade →
      scan RequestReader.step .beforeLine
        (taken ++ (socket.take pieceSize).1) = .going upgrade.reader) :
    Greeting
      { endpoint with
        accepting := accepting
        socket := some (socket.take pieceSize).2 } peer
      (socket.take pieceSize).2 (taken ++ (socket.take pieceSize).1) where
  met := rfl
  unlinked := greeting.unlinked
  called := greeting.called
  spoken := greeting.spoken.take pieceSize
  heard := greeting.heard.take pieceSize
  silent := greeting.silent
  uncounted := greeting.uncounted
  attended _ := going
  waiting waits := absurd waits unwaiting
  upgrading upgrade begun := ⟨kind, onward upgrade begun⟩

theorem Greeting.upgrade (greeting : Greeting endpoint peer socket taken)
    (awake : endpoint.halted = false) (now : Instant) (posts : Nat) :
    KeepsAccounts now (some peer) posts 0 0 endpoint.upgrade := by
  have still : Accounted endpoint (some peer) posts 0 0 :=
    .greeting posts greeting
  unfold Endpoint.upgrade
  rw [greeting.met]
  cases accepting : endpoint.accepting with
  | waiting => exact still.still now
  | ended => exact still.still now
  | upgrading upgrade =>
      obtain ⟨kind, read⟩ := greeting.upgrading upgrade accepting
      have going := greeting.attended (by rw [accepting]; exact nofun)
      have unended : socket.ending = none := by
        cases ending : socket.ending with
        | none => rfl
        | some reached =>
            have finished := (greeting.spoken.ended (by rw [ending]; simp)).1
            rw [going] at finished
            cases finished
      have spoken := greeting.spoken.take pieceSize
      have heard := greeting.heard.take pieceSize
      have opening := greeting.opening pieceSize
      rw [kind] at opening
      have unreached : socket.endReached = none := by
        unfold Socket.endReached
        rw [unended]
        split <;> rfl
      change KeepsAccounts now (some peer) posts 0 0
        (endpoint.upgradePiece upgrade socket)
      unfold Endpoint.upgradePiece
      rw [unreached]
      dsimp only
      split
      · exact still.still now
      · split
        · rename_i later onward
          have next := greeting.take (.upgrading later) kind going nofun
            (by
              intro same begun
              cases begun
              exact takePiece_going read onward)
          exact ⟨0, 0, .greeting posts next, .quiet rfl⟩
        · rename_i response agreed
          obtain ⟨nothing, same⟩ := takePiece_agreed
            peer.choices.isGraphic_host peer.choices.isGraphic_key read opening
            agreed
          rw [nothing, List.append_nil] at opening
          rw [opening, ← kind] at spoken
          have greets : response =
              endpoint.transport.greeting peer.choices := by
            rw [kind]
            exact same
          rw [greets]
          exact greeting.agrees awake now posts going spoken heard
            greeting.silent
        · rename_i error refused
          have next := greeting.take .ended kind going nofun nofun
          exact next.ends now posts rfl

end Accepting

end LatencyBench.Loop

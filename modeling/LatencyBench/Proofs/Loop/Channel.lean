/-
A session and the simulated peer on one stream.

Wherever a command or an acknowledgment is, the invariant accounts for it: in
the outbox, in the part of a payload that is not written yet, among the bytes
on their way, in what the peer has counted, on the way back, or among the
messages that were received.  Three numbers carry it: how many commands were
posted, how many of them were reported as written, and how many messages were
received.
-/

import LatencyBench.Proofs.Loop.Readers

namespace LatencyBench.Loop

open Http Net WebSocket

/-! ### The two directions of the stream -/

/-- What a peer has said, and how much of it a session has taken. -/
structure Spoken (transport : Transport) (peer : Peer) (socket : Socket)
    (taken : List UInt8) : Prop where
  said : peer.written = transport.opening peer.choices ++
    series (transport.acknowledgmentBytes peer.choices) peer.commands
  within : peer.delivered ≤ peer.written.length
  arrived : taken ++ socket.inbound = peer.written.take peer.delivered
  ended : socket.ending ≠ none →
    peer.isOver = true ∧ peer.delivered = peer.written.length

/-- What a peer has made of what was sent to it.  A peer that is over reads on
without taking notice, and may have let go of its socket. -/
structure Heard (transport : Transport) (peer : Peer) (socket : Socket) :
    Prop where
  within : socket.collected ≤ socket.outbound.length
  present : peer.isOver = false → socket.farEnd = .present
  reads : peer.isOver = false →
    peer =
      { (Peer.start transport peer.choices).feed
          (socket.outbound.take socket.collected) with
        delivered := peer.delivered }

/-- What a write does to a socket, and to a peer that still reads. -/
structure Wrote (peer : Peer) (socket : Socket) (bytes : List UInt8)
    (result : Except IoError Unit) (after : Socket) : Prop where
  inbound : after.inbound = socket.inbound
  ending : after.ending ≠ none → socket.ending ≠ none
  collected : after.collected = socket.collected
  longer : socket.outbound <+: after.outbound
  outbound : peer.isOver = false →
    after.outbound = socket.outbound ++ bytes
  present : peer.isOver = false → after.farEnd = .present
  refused : ∀ error, result = .error error → peer.isOver = true

/-- A write needs to keep less once the peer is over. -/
theorem wrote_of_over {peer : Peer} {socket after : Socket}
    {bytes : List UInt8} {result : Except IoError Unit}
    (finished : peer.isOver = true) (inbound : after.inbound = socket.inbound)
    (ending : after.ending ≠ none → socket.ending ≠ none)
    (collected : after.collected = socket.collected)
    (outbound : after.outbound = socket.outbound) :
    Wrote peer socket bytes result after where
  inbound := inbound
  ending := ending
  collected := collected
  longer := ⟨[], (List.append_nil _).trans outbound.symm⟩
  outbound going := by
    rw [finished] at going
    cases going
  present going := by
    rw [finished] at going
    cases going
  refused _ _ := finished

theorem wrote (peer : Peer) (socket : Socket) (bytes : List UInt8)
    (present : peer.isOver = false → socket.farEnd = .present) :
    Wrote peer socket bytes (socket.write bytes).1
      (socket.write bytes).2 := by
  unfold Socket.write
  by_cases empty : bytes.isEmpty
  · rw [if_pos empty]
    have nothing : bytes = [] := List.isEmpty_iff.mp empty
    exact
      { inbound := rfl
        ending := id
        collected := rfl
        longer := List.prefix_refl _
        outbound := by
          intro _
          rw [nothing, List.append_nil]
        present := present
        refused := by
          intro error impossible
          cases impossible }
  · rw [if_neg empty]
    have over_of_far (away : socket.farEnd ≠ .present) :
        peer.isOver = true := by
      cases finished : peer.isOver with
      | true => rfl
      | false => exact absurd (present finished) away
    cases far : socket.farEnd with
    | present =>
        exact
          { inbound := rfl
            ending := id
            collected := rfl
            longer := List.prefix_append _ bytes
            outbound := fun _ => rfl
            present := fun _ => rfl
            refused := by
              intro error impossible
              cases impossible }
    | gone =>
        have finished := over_of_far (by rw [far]; decide)
        exact wrote_of_over finished rfl id rfl rfl
    | refusing =>
        have finished := over_of_far (by rw [far]; decide)
        dsimp only
        split
        · rename_i error reported
          refine wrote_of_over finished rfl ?_ rfl rfl
          intro _
          rw [reported]
          exact Option.some_ne_none _
        · exact wrote_of_over finished rfl id rfl rfl

theorem Spoken.write {transport : Transport} {peer : Peer}
    {socket after : Socket} {taken bytes : List UInt8}
    {result : Except IoError Unit} (spoken : Spoken transport peer socket taken)
    (writes : Wrote peer socket bytes result after) :
    Spoken transport peer after taken where
  said := spoken.said
  within := spoken.within
  arrived := by
    rw [writes.inbound]
    exact spoken.arrived
  ended some := spoken.ended (writes.ending some)

theorem Heard.write {transport : Transport} {peer : Peer}
    {socket after : Socket} {bytes : List UInt8}
    {result : Except IoError Unit} (heard : Heard transport peer socket)
    (writes : Wrote peer socket bytes result after) :
    Heard transport peer after where
  within := by
    rw [writes.collected]
    exact Nat.le_trans heard.within writes.longer.length_le
  present := writes.present
  reads going := by
    rw [writes.collected, writes.outbound going,
      List.take_append_of_le_length heard.within]
    exact heard.reads going

theorem Spoken.take {transport : Transport} {peer : Peer} {socket : Socket}
    {taken : List UInt8} (spoken : Spoken transport peer socket taken)
    (most : Nat) :
    Spoken transport peer (socket.take most).2
      (taken ++ (socket.take most).1) where
  said := spoken.said
  within := spoken.within
  arrived := by
    rw [← spoken.arrived, List.append_assoc]
    exact congrArg (taken ++ ·) (List.take_append_drop most socket.inbound)
  ended := spoken.ended

theorem Heard.take {transport : Transport} {peer : Peer} {socket : Socket}
    (heard : Heard transport peer socket) (most : Nat) :
    Heard transport peer (socket.take most).2 where
  within := heard.within
  present := heard.present
  reads := heard.reads

/-! ### A connection -/

/-- What a sending task may be doing, given the part of a command that it has
written, how many payloads wait behind it, and how many commands were posted
and reported.  A task that has ended inside a command is no longer listened
to. -/
def Fits (transport : Transport) (part : List UInt8)
    (waiting posts sents : Nat) (deaf : Prop) : Sending → Prop
  | .waiting => part = [] ∧ sents + waiting ≤ posts
  | .writing payload unsent =>
      payload = command ∧ unsent ≠ [] ∧
        part ++ unsent = transport.commandBytes ∧
        sents + 1 + waiting ≤ posts
  | .ended => sents ≤ posts ∧ (part ≠ [] → sents + 1 ≤ posts ∧ deaf)

theorem Fits.imp {transport : Transport} {part : List UInt8}
    {waiting posts sents : Nat} {before after : Prop} {sending : Sending}
    (fits : Fits transport part waiting posts sents before sending)
    (onward : before → after) :
    Fits transport part waiting posts sents after sending := by
  cases sending with
  | waiting => exact fits
  | writing payload unsent => exact fits
  | ended =>
      exact ⟨fits.1, fun some => ⟨(fits.2 some).1, onward (fits.2 some).2⟩⟩

/-- A sending task may end at any time, if what the peer says is lost. -/
theorem Fits.ended {transport : Transport} {part : List UInt8}
    {waiting posts sents : Nat} {before after : Prop} {sending : Sending}
    (fits : Fits transport part waiting posts sents before sending)
    (deaf : after) :
    Fits transport part 0 posts sents after .ended := by
  cases sending with
  | waiting =>
      obtain ⟨nothing, within⟩ := fits
      exact ⟨by omega, fun some => absurd nothing some⟩
  | writing payload unsent =>
      obtain ⟨_, _, _, within⟩ := fits
      exact ⟨by omega, fun _ => ⟨by omega, deaf⟩⟩
  | ended =>
      obtain ⟨within, begun⟩ := fits
      exact ⟨within, fun some => ⟨(begun some).1, deaf⟩⟩

/-- A connection whose far end is the simulated peer, apart from what its
sending task does.  `consumed` is what the receiving task has taken behind the
opening, `part` what has been written of the last command. -/
structure Channel (endpoint : Endpoint) (peer : Peer) (socket : Socket)
    (link : Link) (consumed part : List UInt8)
    (posts sents receipts : Nat) : Prop where
  settled : endpoint.accepting = .ended
  called : endpoint.sessionCancelled = true → endpoint.halted = true
  sameTransport : link.transport = endpoint.transport
  spoken : Spoken endpoint.transport peer socket
    (endpoint.transport.opening peer.choices ++ consumed)
  received : (Intake.start endpoint.transport).feed consumed =
    (link.intake, List.replicate receipts (.message acknowledgment))
  heard : Heard endpoint.transport peer socket
  stream : peer.isOver = false →
    socket.outbound = endpoint.transport.greeting peer.choices ++
      (repeated endpoint.transport.commandBytes sents ++ part)
  proper : ProperPart part endpoint.transport.commandBytes
  outbox : ∀ payload ∈ link.outbox, payload = command
  bounded : peer.commands ≤ posts
  listening : endpoint.halted = false → link.receiving ≠ .ended →
    peer.commands ≤ sents
  polite : ∀ answer, link.farewell ≠ .owed answer

/-- Whether what the peer says can no longer become a message, or the peer
says no more. -/
def Deaf (endpoint : Endpoint) (peer : Peer) (link : Link) : Prop :=
  peer.isOver = true ∨ endpoint.halted = true ∨ link.receiving = .ended

/-- A connection whose far end is the simulated peer. -/
structure Talking (endpoint : Endpoint) (peer : Peer) (socket : Socket)
    (link : Link) (consumed part : List UInt8)
    (posts sents receipts : Nat) : Prop
    extends Channel endpoint peer socket link consumed part posts sents
      receipts where
  met : endpoint.socket = some socket
  linked : endpoint.link = some link
  fits : Fits endpoint.transport part link.outbox.length posts sents
    (Deaf endpoint peer link) link.sending
  stopped : link.cancelled = true →
    link.sending = .ended ∨ endpoint.halted = true

/-- Whether an event tells of a command that is out or of a message. -/
def isTraffic : Event → Bool
  | .sent _ => true
  | .received _ _ => true
  | _ => false

/-- The numbers of a connection after some events that it brought.  Either
nothing was completed, or a command was reported as written, or some messages
were received, all of them acknowledgments. -/
inductive Brought (now : Instant) (posts sents receipts : Nat)
    (events : List Event) : Nat → Nat → Prop where
  | quiet (silent : events.filter isTraffic = []) :
      Brought now posts sents receipts events sents receipts
  | sent (length : Nat)
      (report : events.filter isTraffic = [.sent length])
      (within : sents + 1 ≤ posts) :
      Brought now posts sents receipts events (sents + 1) receipts
  | received (count : Nat)
      (messages : events.filter isTraffic =
        List.replicate count (.received acknowledgment now))
      (within : receipts + count ≤ sents) :
      Brought now posts sents receipts events sents (receipts + count)

def holding (endpoint : Endpoint) (link : Link) (socket : Socket) :
    Endpoint :=
  { endpoint with
    link := some link
    socket := some socket }

end LatencyBench.Loop

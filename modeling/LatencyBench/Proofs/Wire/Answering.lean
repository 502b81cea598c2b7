/-
What the tasks of a connection have to say to its peer.

The receiving task answers pings, and puts its answers behind the payload in
hand if there is one; so it does with the answer to the peer's farewell, which
else is left to the sending task.  The sending task says payloads, and takes
its leave when it is called off between two of them.
-/

import LatencyBench.Proofs.Wire.Saying
import LatencyBench.Proofs.Wire.Utterances

namespace LatencyBench

open Net

/-! ### What the tasks make of a connection -/

def Farewell.Suits (transport : Transport) : Farewell → Prop
  | .owed answer => (Received.farewell answer).Suits transport
  | _ => True

/-- What the sending task has in hand once answers were put behind it. -/
def Sending.behind (bytes : List UInt8) : Sending → Sending
  | .writing payload unsent => .writing payload (unsent ++ bytes)
  | other => other

theorem Sending.behind_nil (sending : Sending) :
    sending.behind [] = sending := by
  cases sending with
  | writing payload unsent =>
      rw [behind, List.append_nil]
  | _ => rfl

theorem Sending.behind_behind (sending : Sending) (bytes more : List UInt8) :
    (sending.behind bytes).behind more = sending.behind (bytes ++ more) := by
  cases sending with
  | writing payload unsent =>
      rw [behind, behind, behind, List.append_assoc]
  | _ => rfl

namespace Link

/-- Whether a connection is one of a transport, with all that it holds. -/
structure Suits (transport : Transport) (link : Link) : Prop where
  isOf : link.transport = transport
  intake : link.intake.Suits transport
  farewell : link.farewell.Suits transport

variable {transport : Transport} {link later : Link}

theorem Suits.same (suits : link.Suits transport)
    (kind : later.transport = link.transport)
    (intake : later.intake = link.intake)
    (farewell : later.farewell = link.farewell) :
    later.Suits transport where
  isOf := kind.trans suits.isOf
  intake := intake ▸ suits.intake
  farewell := farewell ▸ suits.farewell

theorem answer_link (link : Link) (socket : Socket) (bytes : List UInt8) :
    (link.answer socket bytes).2.1 =
      { link with sending := link.sending.behind bytes } := by
  unfold answer
  split
  case h_1 writing => rw [writing, Sending.behind]
  case h_2 idle =>
      have same : link.sending.behind bytes = link.sending := by
        unfold Sending.behind
        split
        · exact absurd ‹_› (idle _ _)
        · rfl
      rw [same]

/-- Whether the peer's farewell is answered, so that nothing is left to
say. -/
structure Parted (link : Link) : Prop where
  isWebSocket : link.transport = .webSocket
  silent : link.farewell = .silent
  ended : link.receiving = .ended

theorem Parted.refusal? (parted : link.Parted) :
    link.refusal? = some .closed := by
  rw [Link.refusal?, parted.isWebSocket, parted.silent]

theorem Parted.lastWords (parted : link.Parted) : link.lastWords = [] := by
  rw [Link.lastWords, parted.isWebSocket, parted.silent]

theorem Parted.receive (parted : link.Parted) (socket : Socket) (most : Nat)
    (now : Instant) : (link.receive socket most now).link = link := by
  rw [Link.receive, parted.ended]

/-- What becomes of a connection when its receiving task says something beside
the payloads, or puts it behind the payload in hand. -/
structure Heeds (transport : Transport) (others : List Utterance)
    (before after : Link) : Prop where
  suits : after.Suits transport
  asides : Asides transport others
  stays : GoesOn transport others ∨ after.Parted
  sending : after.sending =
    before.sending.behind (bytesOfAll transport others)
  outbox : after.outbox = before.outbox
  closed : after.closed = before.closed

variable {others more : List Utterance} {before after last : Link}

theorem Suits.heeds (suits : after.Suits transport)
    (sending : after.sending = before.sending)
    (outbox : after.outbox = before.outbox)
    (closed : after.closed = before.closed) :
    before.Heeds transport [] after where
  suits := suits
  asides := asides_nil transport
  stays := .inl (goesOn_nil transport)
  sending := sending.trans before.sending.behind_nil.symm
  outbox := outbox
  closed := closed

theorem Heeds.trans (first : before.Heeds transport others after)
    (goesOn : GoesOn transport others)
    (onward : after.Heeds transport more last) :
    before.Heeds transport (others ++ more) last where
  suits := onward.suits
  asides := first.asides.append onward.asides
  stays := onward.stays.imp_left goesOn.append
  sending := by
    rw [onward.sending, first.sending, Sending.behind_behind,
      bytesOfAll_append]
  outbox := onward.outbox.trans first.outbox
  closed := onward.closed.trans first.closed

theorem answer_heeds (suits : link.Suits transport) (socket : Socket)
    {signal : List UInt8} (fits : Utterance.Suits transport (.pong signal)) :
    link.Heeds transport [.pong signal]
      (link.answer socket (pongBytes signal)).2.1 := by
  have one : Answers transport [signal] := List.forall_mem_singleton.mpr fits
  rw [answer_link]
  exact
    { suits := suits.same rfl rfl rfl
      asides := one.asides
      stays := .inl one.pongs
      sending := by
        rw [bytesOfAll_singleton]
        rfl
      outbox := rfl
      closed := rfl }

theorem hearFarewell_heeds (suits : link.Suits transport) (socket : Socket)
    {leave : List UInt8} (fits : Utterance.Suits transport (.close leave)) :
    ∃ others, link.Heeds transport others
      ((link.hearFarewell (closeBytes leave)).endReceiving socket
        .closed).link := by
  unfold hearFarewell
  split
  case h_1 payload unsent writing =>
      refine ⟨[.close leave], ⟨suits.isOf, suits.intake, trivial⟩,
        asides_close fits, .inr ⟨suits.isOf.trans fits.1, rfl, rfl⟩, ?_, rfl,
        rfl⟩
      rw [bytesOfAll_singleton, writing]
      rfl
  case h_2 =>
      exact ⟨[], Suits.heeds ⟨suits.isOf, suits.intake, leave, fits, rfl⟩
        rfl rfl rfl⟩

theorem actOn_heeds (suits : link.Suits transport) (socket : Socket)
    (now : Instant) {received : List Received}
    (fit : ∀ item ∈ received, item.Suits transport) :
    ∃ others, link.Heeds transport others
      (link.actOn socket now received).link := by
  induction received generalizing link socket with
  | nil => exact ⟨[], suits.heeds rfl rfl rfl⟩
  | cons first rest inductionHypothesis =>
      rw [List.forall_mem_cons] at fit
      cases first with
      | message heard => exact inductionHypothesis suits socket fit.2
      | farewell answer =>
          obtain ⟨leave, fits, rfl⟩ := fit.1
          exact hearFarewell_heeds suits socket fits
      | fault fault =>
          refine ⟨[], Suits.heeds ?_ rfl rfl rfl⟩
          exact suits.same rfl rfl rfl
      | answer bytes =>
          obtain ⟨signal, fits, rfl⟩ := fit.1
          have answered := answer_heeds suits socket fits
          have one : Answers transport [signal] :=
            List.forall_mem_singleton.mpr fits
          unfold actOn
          generalize link.answer socket (pongBytes signal) = step
            at answered ⊢
          rcases step with ⟨result, next, written⟩
          cases result with
          | error error =>
              exact ⟨_, answered.suits.same rfl rfl rfl, answered.asides,
                .inl one.pongs, answered.sending, answered.outbox,
                answered.closed⟩
          | ok _ =>
              obtain ⟨others, heeds⟩ :=
                inductionHypothesis answered.suits written fit.2
              exact ⟨_, answered.trans one.pongs heeds⟩

theorem meetEnd_heeds {step : LinkStep}
    (heeds : before.Heeds transport others step.link) :
    before.Heeds transport others (meetEnd step).link := by
  unfold meetEnd
  split
  case h_2 => exact heeds
  case h_1 ending running _ =>
      have goesOn := heeds.stays.resolve_right fun parted => by
        have ended := parted.ended
        rw [running] at ended
        cases ended
      refine ⟨⟨heeds.suits.isOf, heeds.suits.intake, ?_⟩, heeds.asides,
        .inl goesOn, heeds.sending, heeds.outbox, heeds.closed⟩
      cases ending with
      | finished => exact trivial
      | failed error => exact heeds.suits.farewell

theorem receive_heeds (suits : link.Suits transport) (socket : Socket)
    (most : Nat) (now : Instant) :
    ∃ others, link.Heeds transport others
      (link.receive socket most now).link := by
  unfold receive
  split
  case h_2 => exact ⟨[], suits.heeds rfl rfl rfl⟩
  case h_1 =>
      obtain ⟨intake, fit⟩ := Intake.feed_suits suits.intake
        (socket.take most).1
      have fed : Suits transport
          { link with intake := (link.intake.feed (socket.take most).1).1 } :=
        ⟨suits.isOf, intake, suits.farewell⟩
      obtain ⟨others, heeds⟩ := actOn_heeds fed (socket.take most).2 now fit
      refine ⟨others, meetEnd_heeds ?_⟩
      exact ⟨heeds.suits, heeds.asides, heeds.stays, heeds.sending,
        heeds.outbox, heeds.closed⟩

theorem acceptsAnswers_signals (socket : Socket) {received : List Received}
    (suits : ∀ item ∈ received, item.Suits transport) :
    ∃ signals, Answers transport signals ∧
      socket.acceptsAnswers received =
        bytesOfAll transport (pongs signals) := by
  induction received generalizing socket with
  | nil => exact ⟨[], answers_nil transport, rfl⟩
  | cons first rest inductionHypothesis =>
      rw [List.forall_mem_cons] at suits
      cases first with
      | message heard => exact inductionHypothesis socket suits.2
      | farewell answer => exact ⟨[], answers_nil transport, rfl⟩
      | fault fault => exact ⟨[], answers_nil transport, rfl⟩
      | answer bytes =>
          obtain ⟨signal, fits, rfl⟩ := suits.1
          unfold Socket.acceptsAnswers
          split
          case h_2 => exact ⟨[], answers_nil transport, rfl⟩
          case h_1 later _ =>
              obtain ⟨signals, answers, said⟩ :=
                inductionHypothesis later suits.2
              refine ⟨signal :: signals, ?_, ?_⟩
              · exact List.forall_mem_cons.mpr ⟨fits, answers⟩
              · rw [said]
                rfl

theorem retort_signals (suits : link.Suits transport) (socket : Socket)
    (most : Nat) :
    ∃ signals, Answers transport signals ∧
      link.retort socket most = bytesOfAll transport (pongs signals) := by
  unfold retort replies
  split
  case h_2 => exact ⟨[], answers_nil transport, rfl⟩
  case h_1 =>
      split
      · exact ⟨[], answers_nil transport, rfl⟩
      · exact acceptsAnswers_signals _
          (Intake.feed_suits suits.intake (socket.take most).1).2

theorem retort_writing {payload : Payload} {unsent : List UInt8}
    (writing : link.sending = .writing payload unsent) (socket : Socket)
    (most : Nat) : link.retort socket most = [] := by
  unfold retort
  split
  · exact replies_writing writing _ _
  · rfl

theorem retort_ended (ended : link.receiving = .ended) (socket : Socket)
    (most : Nat) : link.retort socket most = [] := by
  rw [retort, ended]

theorem lastWords_leave (suits : link.Suits transport) :
    link.lastWords = [] ∨
      ∃ payload, Utterance.Suits transport (.close payload) ∧
        link.lastWords = closeBytes payload := by
  have farewell := suits.farewell
  unfold lastWords
  split
  case h_1 isWebSocket _ =>
      exact .inr ⟨[], ⟨suits.isOf.symm.trans isWebSocket, by decide⟩, rfl⟩
  case h_2 answer _ owed =>
      rw [owed] at farewell
      exact .inr farewell
  case h_3 => exact .inl rfl

/-! ### The sending task -/

theorem write_link (link : Link) (socket : Socket) (room : Nat)
    (payload : Payload) (unsent : List UInt8) :
    ∃ sending outbox,
      (link.write socket room payload unsent).link =
        { link with
          sending := sending
          outbox := outbox } := by
  unfold write
  split
  · exact ⟨_, _, rfl⟩
  · split <;> exact ⟨_, link.outbox, rfl⟩

theorem send_link (link : Link) (socket : Socket) (room : Nat) :
    ∃ sending outbox,
      (link.send socket room).link =
        { link with
          sending := sending
          outbox := outbox } := by
  unfold send
  split
  · exact link.write_link socket room _ _
  case h_2 payload rest _ _ =>
      dsimp only
      split
      · exact ⟨_, _, rfl⟩
      · exact write_link { link with outbox := rest } socket room _ _
  · exact ⟨_, _, rfl⟩

theorem stopSending_link (link : Link) (socket : Socket) :
    ∃ sending outbox,
      (link.stopSending socket).link =
        { link with
          sending := sending
          outbox := outbox } := by
  unfold stopSending
  split <;> exact ⟨_, _, rfl⟩

theorem Suits.arm (suits : link.Suits transport) :
    link.arm.Suits transport := by
  unfold Link.arm
  split
  · exact suits
  · split
    · exact suits.same rfl rfl rfl
    · exact suits

theorem Suits.post (suits : link.Suits transport) (payload : Payload) :
    (link.post payload).1.Suits transport := by
  unfold Link.post
  split
  · exact suits
  · exact suits.same rfl rfl rfl

theorem Suits.close (suits : link.Suits transport) :
    link.close.Suits transport := by
  unfold Link.close
  split
  · exact suits
  · exact suits.same rfl rfl rfl

theorem Suits.stopReceiving (suits : link.Suits transport) :
    link.stopReceiving.Suits transport := by
  unfold Link.stopReceiving
  split
  · exact suits.same rfl rfl rfl
  · exact suits

theorem start_suits (transport : Transport) (calledOff : Bool) :
    Suits transport { start transport with cancelled := calledOff } :=
  ⟨rfl, Intake.start_suits transport, trivial⟩

end Link

/-! ### Incidents -/

namespace Served

variable {transport : Transport} {served : Served}

theorem onLink_keeps {Keeps : Link → Prop} {turn : Link → Socket → LinkStep}
    (kept : Keeps served.link)
    (turned : Keeps (turn served.link served.socket).link) :
    Keeps (served.onLink turn).1.link := by
  unfold Served.onLink
  split
  · exact kept
  · exact turned

theorem turn_suits (suits : served.link.Suits transport) (now : Instant)
    (step : EndpointStep) : (served.turn now step).1.link.Suits transport := by
  cases step with
  | receive most =>
      obtain ⟨_, heeds⟩ := Link.receive_heeds suits served.socket most now
      exact onLink_keeps suits heeds.suits
  | stopReceiving => exact onLink_keeps suits suits.stopReceiving
  | send room =>
      obtain ⟨_, _, same⟩ := served.link.send_link served.socket room
      apply onLink_keeps suits
      rw [same]
      exact suits.same rfl rfl rfl
  | stopSending =>
      obtain ⟨_, _, same⟩ := served.link.stopSending_link served.socket
      apply onLink_keeps suits
      rw [same]
      exact suits.same rfl rfl rfl
  | _ => exact suits

/-- The step lemma: a connection stays one of its transport. -/
theorem meet_suits (suits : served.link.Suits transport)
    (connection : Connection) (incident : Incident) :
    (served.meet connection incident).1.link.Suits transport := by
  cases incident with
  | turn now step => exact turn_suits suits now step
  | call made =>
      unfold Served.meet
      dsimp only
      split
      · rcases made with ⟨_, call⟩
        cases call with
        | arm => exact suits.arm
        | send payload => exact suits.post payload
        | close => exact suits.close
        | drop => exact suits.close
      · exact suits
  | farEnd change => exact suits
  | cancelAccept => exact suits
  | cancelSession => exact suits.same rfl rfl rfl
  | halt => exact suits.same rfl rfl rfl

end Served

end LatencyBench

/-
The delivery of what is handed to a connection.

The account that the tasks keep says what a peer receives: over raw TCP the
payloads one behind the other, over WebSocket a message for each.  The sending
task is the only one that confirms payloads, in order, and each of them after
its last byte has been accepted.
-/

import LatencyBench.Proofs.Wire.Ledger

namespace LatencyBench

open Net

/-! ### What a peer receives -/

/-- Whether the payloads that are handed to a connection are delivered in
order.  The sending task confirms a first part of them, and a fault comes last.
A peer over raw TCP receives one behind the other, and all that are confirmed.
A peer over WebSocket makes messages of them: one for each that is confirmed,
and maybe one for the payload in hand. -/
structure Delivered (transport : Transport) (posted : List Payload)
    (said : List UInt8) (confirmed : List Event) (sent : List Payload)
    (failures : List Event) : Prop where
  confirms : confirmed = confirmations sent ++ failures
  lastly : failures = [] ∨ ∃ fault, failures = [.failed fault]
  inOrder : sent <+: posted
  raw : transport = .rawTcp →
    sent.flatten <+: said ∧ said <+: posted.flatten
  webSocket : transport = .webSocket →
    (∀ payload ∈ posted, payload.length < 2 ^ 64) →
    ∀ heard, heard <+: said →
      ∃ count ≤ sent.length + 1,
        WebSocket.messagesIn heard = (posted.take count).map dataMessage ∧
          (heard = said → sent.length ≤ count)

namespace Ledger

variable {transport : Transport} {ledger : Ledger}
  {said current : List Utterance} {handed : List UInt8}
  {failures : List Event}

theorem Tells.inOrder
    (tells : ledger.Tells transport said current handed failures) :
    payloadsOf said <+: ledger.posted := by
  have posted := tells.posted
  rw [payloadsOf_append] at posted
  exact (List.prefix_append ..).trans posted

theorem Tells.uttered_within
    (tells : ledger.Tells transport said current handed failures) :
    ledger.uttered <+: bytesOfAll transport (said ++ current) := by
  rw [tells.uttered, bytesOfAll_append, List.prefix_append_right_inj]
  exact tells.part

theorem Tells.raw
    (tells : ledger.Tells .rawTcp said current handed failures) :
    (payloadsOf said).flatten <+: ledger.uttered ∧
      ledger.uttered <+: ledger.posted.flatten := by
  have suits := tells.talks.suits
  constructor
  · rw [tells.uttered, bytesOfAll_rawTcp]
    · exact List.prefix_append ..
    · exact (List.forall_mem_append.mp suits).1
  · have within := tells.uttered_within
    rw [bytesOfAll_rawTcp suits] at within
    obtain ⟨rest, whole⟩ := tells.posted
    rw [← whole, List.flatten_append]
    exact within.trans (List.prefix_append ..)

theorem Tells.webSocket
    (tells : ledger.Tells .webSocket said current handed failures)
    (short : ∀ payload ∈ ledger.posted, payload.length < 2 ^ 64)
    {heard : List UInt8} (part : heard <+: ledger.uttered) :
    ∃ count ≤ (payloadsOf said).length + 1,
      WebSocket.messagesIn heard =
          (ledger.posted.take count).map dataMessage ∧
        (heard = ledger.uttered → (payloadsOf said).length ≤ count) := by
  obtain ⟨whole, _, messages, most⟩ :=
    messagesIn_said tells.talks.suits
      (fun payload member => short payload (tells.posted.subset member))
      tells.talks.heard (part.trans tells.uttered_within)
  have taken : payloadsOf ((said ++ current).take whole) <+:
      payloadsOf (said ++ current) :=
    List.IsPrefix.filterMap _ (List.take_prefix ..)
  have counted := List.prefix_iff_eq_take.mp (taken.trans tells.posted)
  refine ⟨_, ?_, counted ▸ messages, ?_⟩
  -- The frame of the payload in hand can be whole before its turn is over:
  -- answers may be waiting behind it.
  · have atMost := taken.length_le
    have single := tells.single
    rw [payloadsOf_append, List.length_append] at atMost
    omega
  · rintro rfl
    have reached : said.length ≤ whole := by
      apply most
      · rw [List.length_append]
        exact Nat.le_add_right ..
      · rw [List.take_left', tells.uttered]
        · exact List.prefix_append ..
        · rfl
    have kept : payloadsOf said <+:
        payloadsOf ((said ++ current).take whole) := by
      apply List.IsPrefix.filterMap
      rw [List.take_append, List.take_of_length_le reached]
      exact List.prefix_append ..
    exact kept.length_le

theorem Tells.delivered
    (tells : ledger.Tells transport said current handed failures) :
    Delivered transport ledger.posted ledger.uttered ledger.confirmed
      (payloadsOf said) failures where
  confirms := tells.confirmed
  lastly := tells.lastly
  inOrder := tells.inOrder
  raw := by
    rintro rfl
    exact tells.raw
  webSocket := by
    rintro rfl short heard part
    exact tells.webSocket short part

end Ledger

/-! ### Who confirms -/

def Event.isSent : Event → Bool
  | .sent _ => true
  | _ => false

theorem filter_confirmations (payloads : List Payload) :
    (confirmations payloads).filter Event.isSent = confirmations payloads := by
  apply List.filter_eq_self.mpr
  exact List.forall_mem_map.mpr fun _ _ => rfl

theorem Delivered.filter_sent {transport : Transport}
    {posted sent : List Payload} {said : List UInt8}
    {confirmed failures : List Event}
    (delivered :
      Delivered transport posted said confirmed sent failures) :
    confirmed.filter Event.isSent = confirmations sent := by
  rw [delivered.confirms, List.filter_append, filter_confirmations]
  rcases delivered.lastly with rfl | ⟨fault, rfl⟩
  · exact List.append_nil _
  · exact List.append_nil _

namespace Link

variable (link : Link) (socket : Socket) (now : Instant)

theorem actOn_unsent (received : List Received) :
    ∀ event ∈ (link.actOn socket now received).events,
      event.isSent = false := by
  induction received generalizing link socket with
  | nil => simp [actOn]
  | cons first rest inductionHypothesis =>
      cases first with
      | message payload =>
          exact List.forall_mem_cons.mpr
            ⟨rfl, inductionHypothesis link socket⟩
      | answer bytes =>
          unfold actOn
          rcases link.answer socket bytes with ⟨result, next, written⟩
          cases result with
          | error error => exact List.forall_mem_singleton.mpr rfl
          | ok _ => exact inductionHypothesis next written
      | farewell answer => exact List.forall_mem_singleton.mpr rfl
      | fault fault => exact List.forall_mem_singleton.mpr rfl

theorem meetEnd_unsent {step : LinkStep}
    (unsent : ∀ event ∈ step.events, event.isSent = false) :
    ∀ event ∈ (meetEnd step).events, event.isSent = false := by
  unfold meetEnd
  split
  · exact List.forall_mem_append.mpr
      ⟨unsent, List.forall_mem_singleton.mpr rfl⟩
  · exact unsent

theorem receive_unsent (most : Nat) :
    ∀ event ∈ (link.receive socket most now).events,
      event.isSent = false := by
  unfold receive
  split
  · exact meetEnd_unsent (actOn_unsent _ _ now _)
  · exact List.forall_mem_nil _

theorem write_fails {payload : Payload} {unsent : List UInt8} {room : Nat}
    {error : IoError} {after : Socket}
    (failed : socket.write (unsent.take room) = (.error error, after)) :
    (link.write socket room payload unsent).events =
      [.failed (.ofIoError error)] := by
  rw [write, failed]
  rfl

theorem send_fails {link : Link} {socket : Socket} {room : Nat}
    {error : IoError} {after : Socket}
    (failed : socket.write (link.offer room) = (.error error, after)) :
    (link.send socket room).events = [.failed (.ofIoError error)] := by
  cases sending : link.sending with
  | writing payload unsent =>
      simp only [offer, sending] at failed
      simp only [send, sending]
      exact write_fails link socket failed
  | ended =>
      simp only [offer, sending] at failed
      cases failed
  | waiting =>
      cases outbox : link.outbox with
      | nil =>
          simp only [offer, sending, outbox] at failed
          cases failed
      | cons payload rest =>
          rcases send_next sending outbox socket room with
            ⟨fault, nothing, turned⟩ | ⟨_, offered, turned⟩
          · rw [nothing] at failed
            cases failed
          · rw [offered] at failed
            rw [turned]
            exact write_fails _ socket failed

theorem perform_unsent (call : Call) :
    ∀ event ∈ (link.perform call).2, event.isSent = false := by
  cases call with
  | send payload =>
      unfold perform post
      dsimp only
      split
      · exact List.forall_mem_singleton.mpr rfl
      · exact List.forall_mem_nil _
  | _ => exact List.forall_mem_nil _

theorem perform_ended (ended : link.sending = .ended) (call : Call) :
    (link.perform call).1.sending = .ended := by
  have closes : link.close.sending = .ended := by
    unfold close
    split
    · exact ended
    · rfl
  cases call with
  | arm =>
      change link.arm.sending = .ended
      unfold arm
      split
      · exact ended
      · split <;> exact ended
  | send payload =>
      change (link.post payload).1.sending = .ended
      rw [post, if_pos (.inr ended)]
      exact ended
  | close => exact closes
  | drop => exact closes

end Link

namespace Served

theorem onLink_unsent {served : Served} {turn : Link → Socket → LinkStep}
    (unsent : ∀ event ∈ (turn served.link served.socket).events,
      event.isSent = false) :
    ∀ event ∈ (served.onLink turn).2, event.isSent = false := by
  unfold Served.onLink
  split
  · exact List.forall_mem_nil _
  · exact unsent

theorem meet_unsent (served : Served) (connection : Connection)
    {incident : Incident} (other : incident.isSend = false) :
    ∀ event ∈ (served.meet connection incident).2, event.isSent = false := by
  cases incident with
  | turn now step =>
      cases step with
      | receive most =>
          exact onLink_unsent
            (served.link.receive_unsent served.socket now most)
      | stopReceiving => exact onLink_unsent (List.forall_mem_nil _)
      | send room => cases other
      | stopSending =>
          apply onLink_unsent
          unfold Link.stopSending
          split <;> exact List.forall_mem_nil _
      | _ => exact List.forall_mem_nil _
  | call made =>
      unfold Served.meet
      dsimp only
      split
      · exact served.link.perform_unsent made.call
      · exact List.forall_mem_nil _
  | _ => exact List.forall_mem_nil _

theorem meet_sent (served : Served) (connection : Connection)
    (incident : Incident) :
    (served.meet connection incident).2.filter Event.isSent =
      (served.confirms connection incident).filter Event.isSent := by
  unfold confirms
  cases other : incident.isSend with
  | true => rfl
  | false =>
      apply List.filter_eq_nil_iff.mpr
      intro event member
      rw [served.meet_unsent connection other event member]
      exact Bool.false_ne_true

theorem meet_ended {transport : Transport} {served : Served}
    (suits : served.link.Suits transport)
    (ended : served.link.sending = .ended) (connection : Connection)
    (incident : Incident) :
    (served.meet connection incident).1.link.sending = .ended := by
  let Ended (link : Link) : Prop := link.sending = .ended
  cases incident with
  | turn now step =>
      cases step with
      | receive most =>
          obtain ⟨_, heeds⟩ := Link.receive_heeds suits served.socket most now
          have sending := heeds.sending
          apply @onLink_keeps served Ended _ ended
          rw [ended] at sending
          exact sending
      | stopReceiving =>
          apply @onLink_keeps served Ended _ ended
          change served.link.stopReceiving.sending = .ended
          unfold Link.stopReceiving
          split <;> exact ended
      | send room =>
          apply @onLink_keeps served Ended _ ended
          change (served.link.send served.socket room).link.sending = .ended
          simp only [Link.send, ended]
      | stopSending =>
          apply @onLink_keeps served Ended _ ended
          change (served.link.stopSending served.socket).link.sending = .ended
          unfold Link.stopSending
          split
          · rfl
          · exact ended
      | _ => exact ended
  | call made =>
      unfold Served.meet
      dsimp only
      split
      · exact served.link.perform_ended ended made.call
      · exact ended
  | farEnd change => exact ended
  | cancelAccept => exact ended
  | cancelSession => exact ended
  | halt => rfl

end Served

/-! ### Runs -/

/-- What is handed to a connection in the course of many incidents. -/
def postedIn (connection : Connection) (incidents : List Incident) :
    List Payload :=
  incidents.flatMap (Incident.posts connection)

namespace Endpoint

variable {transport : Transport} {endpoint : Endpoint} {served : Served}
  {ledger : Ledger} {connection : Connection} {link : Link}

theorem Serves.confirms (serves : endpoint.Serves served)
    (incident : Incident) :
    endpoint.confirms incident =
      served.confirms endpoint.connection incident := by
  unfold Endpoint.confirms Served.confirms
  rw [(serves.meet incident).2]

theorem Serves.delivers_course {greeting : List UInt8}
    (serves : endpoint.Serves served)
    (delivers : served.Delivers transport greeting ledger)
    (incidents : List Incident)
    (fair : ∀ incident ∈ incidents, incident.Fair) :
    ∃ later, (endpoint.course incidents).1.Serves later ∧
      later.Delivers transport greeting
        (ledger.enter (postedIn endpoint.connection incidents)
          (endpoint.said incidents) (endpoint.confirmed incidents)) ∧
      (endpoint.course incidents).2.filter Event.isSent =
        (endpoint.confirmed incidents).filter Event.isSent := by
  induction incidents generalizing endpoint served ledger with
  | nil => exact ⟨served, serves, ledger.enter_nothing.symm ▸ delivers, rfl⟩
  | cons incident rest inductionHypothesis =>
      rw [List.forall_mem_cons] at fair
      obtain ⟨next, events⟩ := serves.meet incident
      obtain ⟨later, still, goesOn, sent⟩ := inductionHypothesis next
        (delivers.meet endpoint.connection incident fair.1) fair.2
      rw [meet_connection, ← serves.utters, ← serves.confirms,
        Ledger.enter_enter] at goesOn
      refine ⟨later, still, goesOn, ?_⟩
      simp only [Endpoint.course, Endpoint.confirmed, List.filter_append, sent]
      rw [events, served.meet_sent, serves.confirms]

/-- A connection whose sending task has ended, to its owner: each payload that
is handed to it is answered with one fault and nothing else happens, and
nothing is confirmed any more. -/
structure Finished (connection : Connection) (endpoint : Endpoint) :
    Prop where
  refuses : ∀ payload,
    endpoint.meet (.call (connection.does (.send payload))) =
      (endpoint, [.failed .closed])
  confirms : ∀ incident, endpoint.confirms incident = []

theorem Serves.finished (serves : endpoint.Serves served)
    (ended : served.link.sending = .ended) :
    endpoint.Finished endpoint.connection where
  refuses payload := by
    have refused : served.link.perform (.send payload) =
        (served.link, [.failed .closed]) := if_pos (.inr ended)
    rw [perform_still serves.linked (congrArg Prod.fst refused)]
    exact congrArg (endpoint, ·) (congrArg Prod.snd refused)
  confirms incident := by
    rw [serves.confirms]
    unfold Served.confirms
    split
    case isFalse => rfl
    case isTrue sends =>
        match incident, sends with
        | .turn now (.send room), _ =>
            change (served.onLink _).2 = []
            unfold Served.onLink
            split
            · rfl
            · simp only [Link.send, ended]

theorem Serves.confirms_failure (serves : endpoint.Serves served)
    (lasting : served.halted = false) (now : Instant) {room : Nat}
    {error : IoError} {after : Socket}
    (failed : served.socket.write (served.link.offer room) =
      (.error error, after)) :
    endpoint.confirms (.turn now (.send room)) =
      [.failed (.ofIoError error)] := by
  rw [serves.confirms]
  change (served.onLink _).2 = _
  unfold Served.onLink
  rw [if_neg (by simp [lasting])]
  exact Link.send_fails failed

/-- No turn of a sending task that has ended is reported. -/
theorem Serves.finished_course (serves : endpoint.Serves served)
    (suits : served.link.Suits transport)
    (ended : served.link.sending = .ended) (incidents : List Incident) :
    (endpoint.course incidents).1.Finished endpoint.connection := by
  obtain ⟨later, still, _, stays⟩ :=
    @course_keeps endpoint served
      (fun served =>
        served.link.Suits transport ∧ served.link.sending = .ended)
      serves ⟨suits, ended⟩ incidents
      fun served incident _ keeps =>
        ⟨Served.meet_suits keeps.1 endpoint.connection incident,
          Served.meet_ended keeps.1 keeps.2 endpoint.connection incident⟩
  rw [← course_connection endpoint incidents]
  exact still.finished stays

/-- What a peer is answered before its connection is handed over: nothing, or
that its upgrade is agreed to. -/
def Greets : Transport → List UInt8 → Prop
  | .rawTcp, greeting => greeting = []
  | .webSocket, greeting => ∃ key, greeting = WebSocket.agreement key

theorem Bare.carries {socket : Socket} (bare : endpoint.Bare)
    (connected : endpoint.socket = some socket) : socket.Carries [] := by
  have unwritten := (bare.untouched socket connected).unwritten
  exact ⟨unwritten ▸ List.prefix_rfl, fun _ => unwritten⟩

/-- A connection is handed over on a socket that has sent on a greeting. -/
theorem handed_over_greeted {opening : List Incident} {now : Instant}
    {step : EndpointStep}
    (fair : ∀ incident ∈ opening, incident.Fair)
    (handed : ((start transport).course opening).1.turn now step =
      (endpoint, [.established connection])) :
    connection = endpoint.connection ∧
      ∃ calledOff socket greeting,
        endpoint.Serves (.begin transport calledOff socket) ∧
          Greets transport greeting ∧ socket.Carries greeting := by
  obtain ⟨own, socket, serves, handsOn⟩ := handed_over handed
  have bare := bare_of_handed fair handed
  rw [course_transport] at serves
  cases handsOn with
  | waited isRaw connected =>
      rw [course_transport] at isRaw
      cases isRaw
      exact ⟨own, _, socket, [], serves, rfl, bare.carries connected⟩
  | upgraded upgrade earlier key upgrading connected wrote =>
      -- Only a listener over WebSocket is ever in the middle of an upgrade.
      have webSocket := bare.upgrades upgrade upgrading
      rw [course_transport] at webSocket
      cases webSocket
      refine ⟨own, _, socket, WebSocket.agreement key, serves, ⟨key, rfl⟩, ?_⟩
      have took : earlier.Takes [] (earlier.take WebSocket.pieceSize).2 :=
        Socket.takes_nothing rfl id id
      have answered := (earlier.take WebSocket.pieceSize).2.takes_write
        (WebSocket.agreement key)
      rw [Socket.accepts_ok wrote, wrote] at answered
      exact answered.carries (took.carries (bare.carries connected))

/-- A connection is handed over; then payloads are handed to it amid anything
else that can happen: its socket takes what is written in pieces of any size,
a write fails, somebody calls it off.  What its sending task confirms is a
first part of the payloads, in order, and a fault at most behind them; nobody
else confirms anything.  The payloads are delivered in order, each before it is
confirmed, and what the socket has sent on is a first part of what has been
said, and all of it as long as the far end is there.  A write that fails is
reported as one fault.  Once the sending task has ended, as it has when it has
reported a fault, nothing is confirmed any more, and each payload that is
handed to the connection is answered with one fault. -/
theorem connection_delivers_in_order {opening later : List Incident}
    {reached : Endpoint} {now : Instant} {step : EndpointStep}
    (before : ∀ incident ∈ opening, incident.Fair)
    (handed : ((start transport).course opening).1.turn now step =
      (endpoint, [.established connection]))
    (fair : ∀ incident ∈ later, incident.Fair)
    (reaches : reached = (endpoint.course later).1) :
    ∃ sent failures greeting link socket,
      Delivered transport (postedIn connection later) (endpoint.said later)
        (endpoint.confirmed later) sent failures ∧
      (endpoint.course later).2.filter Event.isSent = confirmations sent ∧
      Greets transport greeting ∧
      reached.socket = some socket ∧
      socket.Carries (greeting ++ endpoint.said later) ∧
      reached.link = some link ∧
      (failures = [] ∨ link.sending = .ended) ∧
      (link.sending = .ended → ∀ rest,
        (reached.course rest).1.Finished connection) ∧
      (reached.halted = false → ∀ moment room error after,
        socket.write (link.offer room) = (.error error, after) →
        reached.confirms (.turn moment (.send room)) =
          [.failed (.ofIoError error)]) := by
  obtain ⟨own, calledOff, fresh, greeting, serves, greets, carries⟩ :=
    handed_over_greeted before handed
  obtain ⟨served, still, delivers, completed⟩ :=
    serves.delivers_course
      (Served.begin_delivers transport calledOff carries) later fair
  obtain ⟨said, current, handedOn, failures, tells, faulty⟩ :=
    delivers.account.tells
  rw [← own] at tells
  rw [← reaches] at still
  refine ⟨payloadsOf said, failures, greeting, served.link, served.socket,
    tells.delivered, completed.trans tells.delivered.filter_sent, greets,
    still.connected, delivers.carries, still.linked, faulty, ?_, ?_⟩
  · intro ended rest
    have finished := still.finished_course delivers.suits ended rest
    rw [reaches, course_connection, ← own, ← reaches] at finished
    exact finished
  · intro lasting moment room error after failed
    rw [still.halted] at lasting
    exact still.confirms_failure lasting moment failed

/-! ### A ping while a letter is being written

The letter is cut in two and the answer to the ping comes behind it; a byte
that is no text follows.  Then the peer aborts the stream, and a write
fails. -/

def letters : List Incident :=
  let call := fun call =>
    Incident.call ((start .webSocket).connection.does call)
  let ping := WebSocket.Frame.whole .ping (some ⟨1, 2, 3, 4⟩) [9]
  [call .arm, call (.send [0xC3, 0xA9]), .turn 2 (.send 1),
   .turn 3 (.arrive ping.encode), .turn 4 (.receive 100),
   .turn 5 (.send 100), call (.send [0xFF]), .turn 6 (.send 100),
   .turn 7 .reset, call (.send [7]), .turn 8 (.send 5), call (.send [8])]

theorem letters_delivered :
    ∃ sent count, confirmations sent = [.sent 2, .sent 1] ∧ 2 ≤ count ∧
      WebSocket.messagesIn (upgradeTurn.1.said letters) =
        ([[0xC3, 0xA9], [0xFF], [7], [8]].take count).map dataMessage ∧
      (upgradeTurn.1.course letters).1.Finished
        (start .webSocket).connection := by
  have handed : ((start .webSocket).course joining).1.turn 1 .upgrade =
      (upgradeTurn.1, [.established (start .webSocket).connection]) :=
    Prod.ext rfl (by decide +kernel)
  obtain ⟨sent, failures, _, _, _, delivered, completed, _, _, _, _, faulty,
      finished, _⟩ :=
    @connection_delivers_in_order .webSocket _ _ joining letters _ 1 .upgrade
      (by simp [joining, Incident.Fair]) handed
      (by simp [letters, Incident.Fair]) rfl
  have posted : postedIn (start .webSocket).connection letters =
      [[0xC3, 0xA9], [0xFF], [7], [8]] := by decide
  rw [posted] at delivered
  obtain ⟨count, _, messages, all⟩ :=
    delivered.webSocket rfl (by decide) _ List.prefix_rfl
  have confirmed : confirmations sent = [.sent 2, .sent 1] :=
    completed.symm.trans (by decide +kernel)
  have two : sent.length = 2 := by
    rw [← List.length_map, ← confirmations, confirmed]
    rfl
  have failed : failures ≠ [] := by
    rintro rfl
    have reported := delivered.confirms
    rw [confirmed] at reported
    exact absurd reported (by decide +kernel)
  exact ⟨sent, count, confirmed, two ▸ all rfl, messages,
    finished (faulty.resolve_left failed) []⟩

end Endpoint

end LatencyBench

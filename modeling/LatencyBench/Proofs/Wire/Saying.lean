/-
What a connection says: the bytes that its tasks write and its socket accepts.

A socket accepts what is written as a whole, until a far end refuses it.
What it has accepted it has sent on, as long as the far end is there, and a
first part of it in any case; so what a peer receives of a connection is a
first part of what the connection says.
-/

import LatencyBench.Proofs.Wire.Discipline

namespace LatencyBench

open Net

/-! ### What a socket accepts -/

namespace Net.Socket

/-- How a write can go: there is nothing to write, the bytes are sent, they
are lost on a far end that is gone, or a far end refuses them. -/
inductive Written (socket : Socket) (bytes : List UInt8) :
    Except IoError Unit × Socket → Prop where
  | nothing (empty : bytes = []) : Written socket bytes (.ok (), socket)
  | sent (present : socket.farEnd = .present) :
      Written socket bytes
        (.ok (), { socket with outbound := socket.outbound ++ bytes })
  | lost (gone : socket.farEnd = .gone) :
      Written socket bytes (.ok (), { socket with farEnd := .refusing })
  | refused (some : bytes ≠ []) (refusing : socket.farEnd = .refusing)
      (error : IoError) (ending : Option StreamEnd) :
      Written socket bytes (.error error, { socket with ending := ending })

/-- What a socket accepts of the bytes that are written: all, or none. -/
def accepts (socket : Socket) (bytes : List UInt8) : List UInt8 :=
  match (socket.write bytes).1 with
  | .ok _ => bytes
  | .error _ => []

/-- What a socket accepts of the answers to what was received, up to what
ends the receive loop. -/
def acceptsAnswers (socket : Socket) : List Received → List UInt8
  | .message _ :: rest => socket.acceptsAnswers rest
  | .answer bytes :: rest =>
      match socket.write bytes with
      | (.ok _, later) => bytes ++ later.acceptsAnswers rest
      | (.error _, _) => []
  | _ => []

/-- Whether a socket has sent on what it has accepted: all of it as long as
the far end is present, and else a first part. -/
structure Carries (uttered : List UInt8) (socket : Socket) : Prop where
  part : socket.outbound <+: uttered
  all : socket.farEnd = .present → socket.outbound = uttered

/-- What becomes of a socket that accepts some bytes. -/
structure Takes (before : Socket) (bytes : List UInt8)
    (after : Socket) : Prop where
  carries : ∀ {uttered : List UInt8}, before.Carries uttered →
    after.Carries (uttered ++ bytes)
  refuses : before.farEnd = .refusing →
    bytes = [] ∧ after.farEnd = .refusing

variable {socket before after last : Socket} {bytes more : List UInt8}
  {error : IoError}

theorem write_written (socket : Socket) (bytes : List UInt8) :
    socket.Written bytes (socket.write bytes) := by
  unfold write
  split
  case isTrue empty => exact .nothing (List.isEmpty_iff.mp empty)
  case isFalse more =>
      have some : bytes ≠ [] := fun none => more (List.isEmpty_iff.mpr none)
      split
      case h_1 present => exact .sent present
      case h_2 gone => exact .lost gone
      case h_3 refusing =>
          split
          · exact .refused some refusing _ _
          · exact .refused some refusing _ socket.ending

theorem accepts_ok (wrote : socket.write bytes = (.ok (), after)) :
    socket.accepts bytes = bytes := by
  rw [accepts, wrote]

theorem accepts_error (wrote : socket.write bytes = (.error error, after)) :
    socket.accepts bytes = [] := by
  rw [accepts, wrote]

theorem accepts_nil (socket : Socket) : socket.accepts [] = [] := rfl

/-- Only a far end that refuses makes a write fail, and it goes on
refusing. -/
theorem write_error (wrote : socket.write bytes = (.error error, after)) :
    after.farEnd = .refusing := by
  have written := socket.write_written bytes
  rw [wrote] at written
  cases written with
  | refused _ refusing => exact refusing

theorem takes_nothing (outbound : after.outbound = before.outbound)
    (present : after.farEnd = .present → before.farEnd = .present)
    (refusing : before.farEnd = .refusing → after.farEnd = .refusing) :
    before.Takes [] after where
  carries := by
    intro uttered carries
    rw [List.append_nil]
    refine ⟨outbound ▸ carries.part, fun still => ?_⟩
    exact outbound.trans (carries.all (present still))
  refuses refuses := ⟨rfl, refusing refuses⟩

theorem takes_refl (socket : Socket) : socket.Takes [] socket :=
  takes_nothing rfl id id

theorem takes_write (socket : Socket) (bytes : List UInt8) :
    socket.Takes (socket.accepts bytes) (socket.write bytes).2 := by
  have written := socket.write_written bytes
  unfold accepts
  generalize socket.write bytes = wrote at written ⊢
  constructor
  · intro uttered carries
    cases written with
    | nothing empty =>
        rw [empty, List.append_nil]
        exact carries
    | sent present =>
        rw [← carries.all present]
        exact ⟨List.prefix_rfl, fun _ => rfl⟩
    | lost gone =>
        exact ⟨carries.part.trans (List.prefix_append ..), nofun⟩
    | refused =>
        rw [List.append_nil]
        exact ⟨carries.part, carries.all⟩
  · intro refusing
    cases written with
    | nothing empty => exact ⟨empty, refusing⟩
    | sent present =>
        rw [refusing] at present
        cases present
    | lost gone =>
        rw [refusing] at gone
        cases gone
    | refused => exact ⟨rfl, refusing⟩

theorem Takes.trans (first : before.Takes bytes after)
    (later : after.Takes more last) : before.Takes (bytes ++ more) last where
  carries carries := by
    rw [← List.append_assoc]
    exact later.carries (first.carries carries)
  refuses refusing := by
    obtain ⟨nothing, still⟩ := first.refuses refusing
    rw [nothing]
    exact later.refuses still

theorem Takes.after_nothing (nothing : before.Takes [] after)
    (later : after.Takes bytes last) : before.Takes bytes last :=
  nothing.trans later

theorem takes_arrive (socket : Socket) (bytes : List UInt8) :
    socket.Takes [] (socket.arrive bytes) := by
  unfold arrive
  split
  · exact takes_nothing rfl id id
  · exact socket.takes_refl

theorem takes_finish (socket : Socket) : socket.Takes [] socket.finish :=
  takes_nothing rfl id id

theorem takes_hangUp (socket : Socket) : socket.Takes [] socket.hangUp := by
  refine takes_nothing rfl ?_ ?_
  · unfold hangUp
    dsimp only
    split
    · exact nofun
    · exact id
  · intro refusing
    rw [hangUp, refusing]

theorem takes_reset (socket : Socket) : socket.Takes [] socket.reset :=
  takes_nothing rfl nofun fun _ => rfl

end Net.Socket

/-! ### What the tasks write -/

namespace Link

def offer (link : Link) (room : Nat) : List UInt8 :=
  match link.sending, link.outbox with
  | .writing _ unsent, _ => unsent.take room
  | .waiting, payload :: _ =>
      match link.refusal? with
      | some _ => []
      | none => (link.transport.wireBytes payload).take room
  | _, _ => []

/-- What the sending task writes when it may notice that it has been called
off. -/
def parting (link : Link) : List UInt8 :=
  if link.cancelled ∧ link.sending = .waiting then link.lastWords else []

/-- What a connection says to what it has received; while a payload is being
written, answers are put behind it. -/
def replies (link : Link) (socket : Socket) (received : List Received) :
    List UInt8 :=
  match link.sending with
  | .writing _ _ => []
  | _ => socket.acceptsAnswers received

def retort (link : Link) (socket : Socket) (most : Nat) : List UInt8 :=
  match link.receiving with
  | .running =>
      link.replies (socket.take most).2
        (link.intake.feed (socket.take most).1).2
  | _ => []

variable {link : Link}

theorem send_next {payload : Payload} {rest : List Payload}
    (waiting : link.sending = .waiting)
    (outbox : link.outbox = payload :: rest) (socket : Socket) (room : Nat) :
    (∃ fault, link.offer room = [] ∧
        link.send socket room =
          { link with outbox := rest }.endSending socket fault) ∨
      link.refusal? = none ∧
        link.offer room = (link.transport.wireBytes payload).take room ∧
        link.send socket room =
          { link with outbox := rest }.write socket room payload
            (link.transport.wireBytes payload) := by
  have turned : link.send socket room =
      match link.refusal? with
      | some fault => { link with outbox := rest }.endSending socket fault
      | none =>
          { link with outbox := rest }.write socket room payload
            (link.transport.wireBytes payload) := by
    cases link
    cases waiting
    cases outbox
    rfl
  have offered : link.offer room =
      match link.refusal? with
      | some _ => []
      | none => (link.transport.wireBytes payload).take room := by
    rw [offer, waiting, outbox]
  cases refused : link.refusal? with
  | some fault =>
      rw [refused] at turned offered
      exact .inl ⟨fault, offered, turned⟩
  | none =>
      rw [refused] at turned offered
      exact .inr ⟨rfl, offered, turned⟩

theorem send_offers (link : Link) (socket : Socket) (room : Nat) :
    (link.send socket room).socket = (socket.write (link.offer room)).2 := by
  cases sending : link.sending with
  | writing payload unsent =>
      simp only [send, offer, sending]
      exact write_writes ..
  | ended =>
      simp only [send, offer, sending]
      rfl
  | waiting =>
      cases outbox : link.outbox with
      | nil =>
          simp only [send, offer, sending, outbox]
          rfl
      | cons payload rest =>
          rcases send_next sending outbox socket room with
            ⟨fault, nothing, turned⟩ | ⟨_, offered, turned⟩
          · rw [turned, nothing]
            rfl
          · rw [turned, offered]
            exact write_writes ..

theorem stopSending_offers (link : Link) (socket : Socket) :
    (link.stopSending socket).socket = (socket.write link.parting).2 := by
  unfold stopSending parting
  split <;> rfl

theorem replies_writing {payload : Payload} {unsent : List UInt8}
    (writing : link.sending = .writing payload unsent) (socket : Socket)
    (received : List Received) : link.replies socket received = [] := by
  rw [replies, writing]

def Idle (link : Link) : Prop :=
  ∀ payload unsent, link.sending ≠ .writing payload unsent

theorem Idle.replies (idle : link.Idle) (socket : Socket)
    (received : List Received) :
    link.replies socket received = socket.acceptsAnswers received := by
  unfold Link.replies
  split
  · exact absurd ‹_› (idle _ _)
  · rfl

theorem Idle.answer (idle : link.Idle) (socket : Socket)
    (bytes : List UInt8) :
    link.answer socket bytes =
      ((socket.write bytes).1, link, (socket.write bytes).2) := by
  unfold Link.answer
  split
  · exact absurd ‹_› (idle _ _)
  · rfl

theorem actOn_writing {payload : Payload} {unsent : List UInt8}
    (writing : link.sending = .writing payload unsent) (socket : Socket)
    (now : Instant) (received : List Received) :
    (link.actOn socket now received).socket = socket := by
  induction received generalizing link unsent with
  | nil => rfl
  | cons first rest inductionHypothesis =>
      cases first with
      | message heard => exact inductionHypothesis writing
      | answer bytes =>
          rw [actOn, answer, writing]
          exact inductionHypothesis rfl
      | farewell answer => rfl
      | fault fault => rfl

theorem Idle.actOn (idle : link.Idle) (socket : Socket) (now : Instant)
    (received : List Received) :
    socket.Takes (socket.acceptsAnswers received)
      (link.actOn socket now received).socket := by
  induction received generalizing socket with
  | nil => exact socket.takes_refl
  | cons first rest inductionHypothesis =>
      cases first with
      | message heard => exact inductionHypothesis socket
      | answer bytes =>
          have took := socket.takes_write bytes
          rw [Link.actOn, idle.answer, Socket.acceptsAnswers]
          unfold Socket.accepts at took
          generalize socket.write bytes = wrote at took ⊢
          rcases wrote with ⟨result, later⟩
          cases result with
          | error error => exact took
          | ok _ => exact took.trans (inductionHypothesis later)
      | farewell answer => exact socket.takes_refl
      | fault fault => exact socket.takes_refl

theorem actOn_takes (link : Link) (socket : Socket) (now : Instant)
    (received : List Received) :
    socket.Takes (link.replies socket received)
      (link.actOn socket now received).socket := by
  by_cases idle : link.Idle
  · rw [idle.replies]
    exact idle.actOn socket now received
  · obtain ⟨payload, unsent, writing⟩ :
        ∃ payload unsent, link.sending = .writing payload unsent := by
      simpa [Idle] using idle
    rw [replies_writing writing, actOn_writing writing]
    exact socket.takes_refl

theorem receive_takes (link : Link) (socket : Socket) (most : Nat)
    (now : Instant) :
    socket.Takes (link.retort socket most)
      (link.receive socket most now).socket := by
  cases receiving : link.receiving with
  | running =>
      have took : socket.Takes [] (socket.take most).2 :=
        Socket.takes_nothing rfl id id
      simp only [receive, retort, receiving, meetEnd_socket]
      refine took.after_nothing ?_
      rw [← receiving]
      exact actOn_takes
        { link with intake := (link.intake.feed (socket.take most).1).1 }
        (socket.take most).2 now _
  | parked =>
      simp only [receive, retort, receiving]
      exact socket.takes_refl
  | ended =>
      simp only [receive, retort, receiving]
      exact socket.takes_refl

end Link

/-! ### What a connection says -/

def Incident.posts (connection : Connection) : Incident → List Payload
  | .call made =>
      match made.call with
      | .send payload =>
          if made.connection = connection then [payload] else []
      | _ => []
  | _ => []

theorem Incident.posts_other {connection other : Connection}
    (foreign : other ≠ connection) (call : Call) :
    Incident.posts connection (.call (other.does call)) = [] := by
  cases call with
  | send payload => exact if_neg foreign
  | _ => rfl

def Incident.isSend : Incident → Bool
  | .turn _ (.send _) => true
  | _ => false

namespace Served

/-- What a task says in a turn that it makes as long as there is a
runtime. -/
def inTurn (served : Served) (bytes : List UInt8) : List UInt8 :=
  if served.halted then [] else bytes

def utters (served : Served) : Incident → List UInt8
  | .turn _ (.receive most) =>
      served.inTurn (served.link.retort served.socket most)
  | .turn _ (.send room) =>
      served.inTurn (served.socket.accepts (served.link.offer room))
  | .turn _ .stopSending =>
      served.inTurn (served.socket.accepts served.link.parting)
  | _ => []

variable {served : Served}

theorem onLink_takes {turn : Link → Socket → LinkStep} {bytes : List UInt8}
    (took : served.socket.Takes bytes
      (turn served.link served.socket).socket) :
    served.socket.Takes (served.inTurn bytes)
      (served.onLink turn).1.socket := by
  unfold Served.onLink inTurn
  split
  · exact served.socket.takes_refl
  · exact took

theorem turn_takes (served : Served) (now : Instant) (step : EndpointStep) :
    served.socket.Takes (served.utters (.turn now step))
      (served.turn now step).1.socket := by
  have idle := served.socket.takes_refl
  cases step with
  | arrive bytes => exact served.socket.takes_arrive bytes
  | finish => exact served.socket.takes_finish
  | hangUp => exact served.socket.takes_hangUp
  | reset => exact served.socket.takes_reset
  | receive most =>
      exact onLink_takes (served.link.receive_takes served.socket most now)
  | stopReceiving =>
      have took := @onLink_takes served
        (fun link socket =>
          { link := link.stopReceiving
            socket := socket }) [] idle
      rw [inTurn, ite_self] at took
      exact took
  | send room =>
      apply onLink_takes
      rw [Link.send_offers]
      exact served.socket.takes_write _
  | stopSending =>
      apply onLink_takes
      rw [Link.stopSending_offers]
      exact served.socket.takes_write _
  | _ => exact idle

/-- The step lemma: a socket takes what its connection says. -/
theorem meet_takes (served : Served) (connection : Connection)
    (incident : Incident) (fair : incident.Fair) :
    served.socket.Takes (served.utters incident)
      (served.meet connection incident).1.socket := by
  have idle := served.socket.takes_refl
  cases incident with
  | turn now step => exact served.turn_takes now step
  | farEnd change =>
      obtain ⟨count, same⟩ := fair served.socket
      change served.socket.Takes [] (change served.socket)
      rw [same]
      exact Socket.takes_nothing rfl id id
  | call made =>
      unfold Served.meet
      dsimp only
      split <;> exact idle
  | cancelAccept => exact idle
  | cancelSession => exact idle
  | halt => exact idle

end Served

namespace Endpoint

def utters (endpoint : Endpoint) (incident : Incident) : List UInt8 :=
  match endpoint.link, endpoint.socket with
  | some link, some socket =>
      Served.utters
        { link := link
          socket := socket
          halted := endpoint.halted } incident
  | _, _ => []

/-- Everything that the connection of a transport says in the course of many
incidents. -/
def said (endpoint : Endpoint) : List Incident → List UInt8
  | [] => []
  | incident :: rest =>
      endpoint.utters incident ++ (endpoint.meet incident).1.said rest

def confirms (endpoint : Endpoint) (incident : Incident) : List Event :=
  if incident.isSend then (endpoint.meet incident).2 else []

def confirmed (endpoint : Endpoint) : List Incident → List Event
  | [] => []
  | incident :: rest =>
      endpoint.confirms incident ++ (endpoint.meet incident).1.confirmed rest

variable {endpoint : Endpoint} {served : Served}

theorem Serves.utters (serves : endpoint.Serves served) (incident : Incident) :
    endpoint.utters incident = served.utters incident := by
  unfold Endpoint.utters
  rw [serves.linked, serves.connected, serves.halted]

end Endpoint

end LatencyBench

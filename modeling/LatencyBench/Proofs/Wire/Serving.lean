/-
A connection after it has been handed over.

The accepting task is through by then, so whatever happens to the transport
happens to the connection and its socket: the peer acts on the socket, the
owner calls, the tasks take turns as long as there is a runtime.
-/

import LatencyBench.Proofs.Wire.Upgraded

namespace LatencyBench

open Net WebSocket

/-! ### What the sending task touches -/

namespace Link

theorem write_spared (link : Link) (socket : Socket) (room : Nat)
    (payload : Payload) (unsent : List UInt8) :
    link.Spares (link.write socket room payload unsent).link := by
  unfold write
  rcases socket.write (unsent.take room) with ⟨result, written⟩
  cases result with
  | error error => exact ⟨rfl, rfl, rfl, rfl⟩
  | ok _ =>
      dsimp only
      split <;> exact ⟨rfl, rfl, rfl, rfl⟩

theorem send_spared (link : Link) (socket : Socket) (room : Nat) :
    link.Spares (link.send socket room).link := by
  unfold send
  split
  case h_1 payload unsent _ => exact link.write_spared socket room _ _
  case h_2 payload rest _ _ =>
      have took : link.Spares { link with outbox := rest } :=
        ⟨rfl, rfl, rfl, rfl⟩
      dsimp only
      split
      · exact took.trans ⟨rfl, rfl, rfl, rfl⟩
      · exact took.trans (write_spared _ socket room _ _)
  case h_3 => exact link.spares_refl

theorem stopSending_spared (link : Link) (socket : Socket) :
    link.Spares (link.stopSending socket).link := by
  unfold stopSending
  split
  · exact ⟨rfl, rfl, rfl, rfl⟩
  · exact link.spares_refl

theorem write_writes (link : Link) (socket : Socket) (room : Nat)
    (payload : Payload) (unsent : List UInt8) :
    (link.write socket room payload unsent).socket =
      (socket.write (unsent.take room)).2 := by
  unfold write
  rcases socket.write (unsent.take room) with ⟨result, written⟩
  cases result with
  | error error => rfl
  | ok _ =>
      dsimp only
      split <;> rfl

theorem send_writes (link : Link) (socket : Socket) (room : Nat) :
    ∃ bytes, (link.send socket room).socket = (socket.write bytes).2 := by
  unfold send
  split
  · exact ⟨_, write_writes ..⟩
  · dsimp only
    split
    · exact ⟨[], rfl⟩
    · exact ⟨_, write_writes ..⟩
  · exact ⟨[], rfl⟩

theorem stopSending_writes (link : Link) (socket : Socket) :
    ∃ bytes, (link.stopSending socket).socket = (socket.write bytes).2 := by
  unfold stopSending
  split
  · exact ⟨_, rfl⟩
  · exact ⟨[], rfl⟩

end Link

/-! ### What can happen to a connection -/

/-- A connection that has been handed over, with its socket; `halted` says
whether the runtime is gone. -/
structure Served where
  link : Link
  socket : Socket
  halted : Bool

namespace Served

/-- A connection as it is handed over; the session may be called off
already. -/
def begin (transport : Transport) (calledOff : Bool) (socket : Socket) :
    Served :=
  { link := { Link.start transport with cancelled := calledOff }
    socket := socket
    halted := false }

def onSocket (served : Served) (change : Socket → Socket) : Served :=
  { served with socket := change served.socket }

def onLink (served : Served) (turn : Link → Socket → LinkStep) :
    Served × List Event :=
  if served.halted then (served, [])
  else
    let turned := turn served.link served.socket
    ({ served with
        link := turned.link
        socket := turned.socket },
      turned.events)

def perform (served : Served) (call : Call) : Served × List Event :=
  let (link, events) := served.link.perform call
  ({ served with link := link }, events)

def turn (served : Served) (now : Instant) :
    EndpointStep → Served × List Event
  | .arrive bytes => (served.onSocket fun socket => socket.arrive bytes, [])
  | .finish => (served.onSocket Socket.finish, [])
  | .hangUp => (served.onSocket Socket.hangUp, [])
  | .reset => (served.onSocket Socket.reset, [])
  | .receive most =>
      served.onLink fun link socket => link.receive socket most now
  | .stopReceiving =>
      served.onLink fun link socket =>
        { link := link.stopReceiving
          socket := socket }
  | .send room => served.onLink fun link socket => link.send socket room
  | .stopSending => served.onLink fun link socket => link.stopSending socket
  | _ => (served, [])

def meet (connection : Connection) (served : Served) :
    Incident → Served × List Event
  | .turn now step => served.turn now step
  | .farEnd change => (served.onSocket change, [])
  | .call made =>
      if made.connection = connection then served.perform made.call
      else (served, [])
  | .cancelAccept => (served, [])
  | .cancelSession =>
      ({ served with link := { served.link with cancelled := true } }, [])
  | .halt =>
      ({ served with
          link := served.link.halt
          halted := true }, [])

end Served

namespace Endpoint

/-- Whether a transport has handed its connection over, and how that
stands. -/
structure Serves (endpoint : Endpoint) (served : Served) : Prop where
  accepted : endpoint.accepting = .ended
  linked : endpoint.link = some served.link
  connected : endpoint.socket = some served.socket
  halted : endpoint.halted = served.halted

variable {endpoint before after : Endpoint} {served : Served}

/-! ### What happens to a transport happens to its connection -/

theorem Serves.onSocket (serves : endpoint.Serves served)
    (change : Socket → Socket) :
    (endpoint.onSocket change).Serves (served.onSocket change) where
  accepted := serves.accepted
  linked := serves.linked
  connected := congrArg (Option.map change) serves.connected
  halted := serves.halted

theorem Serves.perform (serves : endpoint.Serves served)
    (made : ConnectionCall) :
    (endpoint.perform made).1.Serves
        (served.meet endpoint.connection (.call made)).1 ∧
      (endpoint.perform made).2 =
        (served.meet endpoint.connection (.call made)).2 := by
  unfold Endpoint.perform Served.meet
  rw [serves.linked]
  dsimp only
  by_cases own : made.connection = endpoint.connection
  · rw [if_pos own, if_pos own]
    exact ⟨⟨serves.accepted, rfl, serves.connected, serves.halted⟩, rfl⟩
  · rw [if_neg own, if_neg own]
    exact ⟨serves, rfl⟩

theorem Serves.onLink (serves : endpoint.Serves served)
    {turn : Link → Socket → LinkStep} {turned : Endpoint × List Event}
    (isTask : turned =
      if endpoint.halted then (endpoint, []) else endpoint.onLink turn) :
    turned.1.Serves (served.onLink turn).1 ∧
      turned.2 = (served.onLink turn).2 := by
  unfold Endpoint.onLink at isTask
  unfold Served.onLink
  rw [serves.linked, serves.connected, serves.halted] at isTask
  rw [isTask]
  cases lasting : served.halted with
  | true => exact ⟨serves, rfl⟩
  | false =>
      exact ⟨⟨serves.accepted, rfl, rfl, rfl⟩, rfl⟩

theorem Serves.idle (serves : endpoint.Serves served)
    {turned : Endpoint × List Event}
    (idle : turned = (endpoint, []) ∨
      turned = if endpoint.halted then (endpoint, []) else (endpoint, [])) :
    turned.1.Serves served ∧ turned.2 = [] := by
  rcases idle with same | same
  · rw [same]
    exact ⟨serves, rfl⟩
  · rw [same, ite_self]
    exact ⟨serves, rfl⟩

theorem Serves.turn (serves : endpoint.Serves served) (now : Instant)
    (step : EndpointStep) :
    (endpoint.turn now step).1.Serves (served.turn now step).1 ∧
      (endpoint.turn now step).2 = (served.turn now step).2 := by
  obtain ⟨accept, acceptFails, giveUp, upgrade⟩ :=
    accepting_idle serves.accepted
  cases step with
  | connect addressKnown =>
      apply serves.idle
      rw [Endpoint.turn, connect_of_accepted serves.accepted]
      exact .inl rfl
  | arrive bytes => exact ⟨serves.onSocket _, rfl⟩
  | finish => exact ⟨serves.onSocket _, rfl⟩
  | hangUp => exact ⟨serves.onSocket _, rfl⟩
  | reset => exact ⟨serves.onSocket _, rfl⟩
  | accept =>
      apply serves.idle
      rw [Endpoint.turn, taskTurn, accept]
      · exact .inr rfl
      all_goals simp
  | acceptFails error =>
      apply serves.idle
      rw [Endpoint.turn, taskTurn, acceptFails]
      · exact .inr rfl
      all_goals simp
  | giveUpAccepting =>
      apply serves.idle
      rw [Endpoint.turn, taskTurn, giveUp]
      · exact .inr rfl
      all_goals simp
  | upgrade =>
      apply serves.idle
      rw [Endpoint.turn, taskTurn, upgrade]
      · exact .inr rfl
      all_goals simp
  | receive most => exact serves.onLink rfl
  | stopReceiving => exact serves.onLink rfl
  | send room => exact serves.onLink rfl
  | stopSending => exact serves.onLink rfl

/-- The step lemma. -/
theorem Serves.meet (serves : endpoint.Serves served) (incident : Incident) :
    (endpoint.meet incident).1.Serves
        (served.meet endpoint.connection incident).1 ∧
      (endpoint.meet incident).2 =
        (served.meet endpoint.connection incident).2 := by
  cases incident with
  | turn now step => exact serves.turn now step
  | farEnd change => exact ⟨serves.onSocket change, rfl⟩
  | call made => exact serves.perform made
  | cancelAccept =>
      exact ⟨⟨serves.accepted, serves.linked, serves.connected,
        serves.halted⟩, rfl⟩
  | cancelSession =>
      refine ⟨⟨serves.accepted, ?_, serves.connected, serves.halted⟩, rfl⟩
      exact congrArg (Option.map _) serves.linked
  | halt =>
      refine ⟨⟨rfl, ?_, serves.connected, rfl⟩, rfl⟩
      exact congrArg (Option.map Link.halt) serves.linked

theorem meet_connection (endpoint : Endpoint) (incident : Incident) :
    (endpoint.meet incident).1.connection = endpoint.connection := by
  rw [Endpoint.connection, meet_transport, Endpoint.connection]

theorem course_connection (endpoint : Endpoint) (incidents : List Incident) :
    (endpoint.course incidents).1.connection = endpoint.connection := by
  rw [Endpoint.connection, course_transport, Endpoint.connection]

theorem Serves.course_keeps {Keeps : Served → Prop}
    (serves : endpoint.Serves served) (kept : Keeps served)
    (incidents : List Incident)
    (keeps : ∀ served incident, incident ∈ incidents → Keeps served →
      Keeps (served.meet endpoint.connection incident).1) :
    ∃ later, (endpoint.course incidents).1.Serves later ∧ Keeps later := by
  induction incidents generalizing endpoint served with
  | nil => exact ⟨served, serves, kept⟩
  | cons incident rest inductionHypothesis =>
      have next := (serves.meet incident).1
      apply inductionHypothesis next
      · exact keeps served incident List.mem_cons_self kept
      · intro served other member
        rw [meet_connection]
        exact keeps served other (List.mem_cons_of_mem _ member)

/-! ### Handing over -/

theorem establish_serves {socket : Socket} {connection : Connection}
    (lasting : before.halted = false)
    (established : { before with socket := some socket }.establish =
      (after, [.established connection])) :
    connection = after.connection ∧
      after.Serves
        (.begin before.transport before.sessionCancelled socket) := by
  cases established
  exact ⟨rfl, rfl, rfl, rfl, lasting⟩

theorem accept_established {connection : Connection}
    (accepted : before.accept = (after, [.established connection])) :
    ∃ socket, before.transport = .rawTcp ∧ before.socket = some socket ∧
      { before with socket := some socket }.establish =
        (after, [.established connection]) := by
  unfold Endpoint.accept at accepted
  split at accepted
  case h_2 => cases accepted
  case h_1 socket _ connected =>
      split at accepted
      · cases accepted
      · split at accepted
        case h_1 isRaw =>
            refine ⟨socket, isRaw, connected, ?_⟩
            rw [← connected]
            exact accepted
        case h_2 => cases accepted

theorem onLink_not_established {turn : Link → Socket → LinkStep}
    {now : Instant} {connection : Connection}
    (reported : ∀ link socket, ∀ event ∈ (turn link socket).events,
      event.OfConnection now) :
    before.onLink turn ≠ (after, [.established connection]) := by
  intro established
  unfold Endpoint.onLink at established
  split at established
  case h_2 => cases established
  case h_1 link socket _ _ =>
      have events := congrArg Prod.snd established
      have own := reported link socket (.established connection)
      rw [show (turn link socket).events = [.established connection] from
        events] at own
      cases own List.mem_cons_self

/-- The socket on which a connection is handed over: over raw TCP the one that
waited, and else the one on which its upgrade was answered. -/
inductive HandsOn (before : Endpoint) (socket : Socket) : Prop where
  | waited (isRaw : before.transport = .rawTcp)
      (connected : before.socket = some socket)
  | upgraded (upgrade : Upgrade) (earlier : Socket) (key : List UInt8)
      (upgrading : before.accepting = .upgrading upgrade)
      (connected : before.socket = some earlier)
      (wrote : (earlier.take pieceSize).2.write (agreement key) =
        (.ok (), socket))

/-- A turn that hands a connection over leaves it new, on a socket of its
own. -/
theorem handed_over {now : Instant} {step : EndpointStep}
    {connection : Connection}
    (handed : before.turn now step = (after, [.established connection])) :
    connection = after.connection ∧
      ∃ socket,
        after.Serves
          (.begin before.transport before.sessionCancelled socket) ∧
        before.HandsOn socket := by
  have lasting (turned : Endpoint × List Event)
      (isTask : (if before.halted then (before, []) else turned) =
        (after, [.established connection])) :
      before.halted = false ∧ turned = (after, [.established connection]) := by
    cases halted : before.halted with
    | true =>
        rw [halted] at isTask
        cases isTask
    | false =>
        rw [halted] at isTask
        exact ⟨rfl, isTask⟩
  cases step with
  | connect addressKnown => cases handed
  | arrive bytes => cases handed
  | finish => cases handed
  | hangUp => cases handed
  | reset => cases handed
  | accept =>
      obtain ⟨lasts, accepted⟩ := lasting before.accept handed
      obtain ⟨socket, isRaw, connected, established⟩ :=
        accept_established accepted
      obtain ⟨own, serves⟩ := establish_serves lasts established
      exact ⟨own, socket, serves, .waited isRaw connected⟩
  | acceptFails error =>
      obtain ⟨_, failed⟩ := lasting (before.acceptFails error) handed
      unfold Endpoint.acceptFails at failed
      split at failed <;> cases failed
  | giveUpAccepting =>
      obtain ⟨_, gaveUp⟩ := lasting before.giveUpAccepting handed
      unfold Endpoint.giveUpAccepting at gaveUp
      split at gaveUp <;> cases gaveUp
  | upgrade =>
      obtain ⟨lasts, upgraded⟩ := lasting before.upgrade handed
      obtain ⟨upgrade, earlier, key, socket, upgrading, connected, wrote,
        established⟩ := upgrade_established upgraded
      obtain ⟨own, serves⟩ := establish_serves lasts established
      exact ⟨own, socket, serves,
        .upgraded upgrade earlier key upgrading connected wrote⟩
  | receive most =>
      obtain ⟨_, established⟩ := lasting (before.onLink _) handed
      exact absurd established (onLink_not_established fun link socket =>
        link.receive_ofConnection socket now most)
  | stopReceiving =>
      obtain ⟨_, established⟩ := lasting (before.onLink _) handed
      exact absurd established (onLink_not_established fun _ _ =>
        List.forall_mem_nil (Event.OfConnection now))
  | send room =>
      obtain ⟨_, established⟩ := lasting (before.onLink _) handed
      exact absurd established (onLink_not_established fun link socket =>
        link.send_ofConnection socket now room)
  | stopSending =>
      obtain ⟨_, established⟩ := lasting (before.onLink _) handed
      exact absurd established (onLink_not_established fun link socket =>
        link.stopSending_ofConnection socket now)

end Endpoint

/-! ### Before a connection is handed over -/

/-- Whether the far end of the socket only takes what was written, apart from
what its own steps do. -/
def Incident.Fair : Incident → Prop
  | .farEnd change =>
      ∀ socket : Socket, ∃ count,
        change socket = { socket with collected := count }
  | _ => True

namespace Net.Socket

/-- Whether a stream, if it ends, ends with its connection closed. -/
def Closes (socket : Socket) : Prop :=
  ∀ ending, socket.ending = some ending → ending.fault = .closed

/-- A socket that nobody has written to, and that ends, if it does, with its
connection closed. -/
structure Untouched (socket : Socket) : Prop where
  unwritten : socket.outbound = []
  closes : socket.Closes

variable {socket : Socket}

theorem fresh_untouched : fresh.Untouched := ⟨rfl, nofun⟩

theorem Closes.finish (closes : socket.Closes) : socket.finish.Closes := by
  intro ending last
  cases had : socket.ending with
  | none =>
      rw [Socket.finish, had] at last
      cases last
      rfl
  | some other =>
      rw [Socket.finish, had] at last
      cases last
      exact closes other had

theorem Untouched.arrive (untouched : socket.Untouched)
    (bytes : List UInt8) : (socket.arrive bytes).Untouched := by
  unfold Socket.arrive
  split
  · exact ⟨untouched.unwritten, untouched.closes⟩
  · exact untouched

theorem Untouched.finish (untouched : socket.Untouched) :
    socket.finish.Untouched :=
  ⟨untouched.unwritten, untouched.closes.finish⟩

theorem Untouched.hangUp (untouched : socket.Untouched) :
    socket.hangUp.Untouched :=
  ⟨untouched.unwritten, untouched.closes.finish⟩

theorem Untouched.reset (untouched : socket.Untouched) :
    socket.reset.Untouched := by
  refine ⟨untouched.unwritten, ?_⟩
  rintro _ ⟨⟩
  rfl

end Net.Socket

namespace Endpoint

variable {endpoint before after : Endpoint}

/-- Whether a listener still waits for its peer or for its upgrade, with no
connection and an untouched socket at most. -/
structure Bare (endpoint : Endpoint) : Prop where
  going : endpoint.accepting ≠ .ended
  upgrades : ∀ upgrade, endpoint.accepting = .upgrading upgrade →
    endpoint.transport = .webSocket
  linkless : endpoint.link = none
  untouched : ∀ socket, endpoint.socket = some socket → socket.Untouched

theorem start_bare (transport : Transport) : (start transport).Bare :=
  ⟨nofun, nofun, rfl, nofun⟩

theorem Bare.onSocket (bare : endpoint.Bare) {change : Socket → Socket}
    (keeps : ∀ socket : Socket, socket.Untouched → (change socket).Untouched) :
    (endpoint.onSocket change).Bare := by
  refine ⟨bare.going, bare.upgrades, bare.linkless, ?_⟩
  intro socket connected
  obtain ⟨had, connectedBefore, rfl⟩ := Option.map_eq_some_iff.mp connected
  exact keeps had (bare.untouched had connectedBefore)

theorem Bare.connect (bare : endpoint.Bare) (addressKnown : Bool) :
    (endpoint.connect addressKnown).Bare := by
  unfold Endpoint.connect
  split
  · refine ⟨bare.going, bare.upgrades, bare.linkless, ?_⟩
    rintro _ ⟨⟩
    exact Socket.fresh_untouched
  · exact bare

theorem Bare.onLink (bare : endpoint.Bare)
    (turn : Link → Socket → LinkStep) : (endpoint.onLink turn).1.Bare := by
  unfold Endpoint.onLink
  rw [bare.linkless]
  exact bare

theorem Bare.accept (bare : endpoint.Bare) :
    endpoint.accept.1.Bare ∨ endpoint.accept.1.accepting = .ended := by
  unfold Endpoint.accept
  split
  case h_2 => exact .inl bare
  case h_1 =>
      split
      · exact .inr rfl
      · split
        · exact .inr rfl
        case h_2 transport =>
            exact .inl
              ⟨nofun, fun _ _ => transport, bare.linkless, bare.untouched⟩

theorem agreeUpgrade_ended (endpoint : Endpoint) (socket : Socket)
    (response : List UInt8) :
    (endpoint.agreeUpgrade socket response).1.accepting = .ended := by
  unfold Endpoint.agreeUpgrade
  split <;> rfl

theorem Bare.upgrade (bare : endpoint.Bare) :
    endpoint.upgrade.1.Bare ∨ endpoint.upgrade.1.accepting = .ended := by
  unfold Endpoint.upgrade
  split
  case h_2 => exact .inl bare
  case h_1 upgrade socket upgrading connected =>
      unfold Endpoint.upgradePiece
      split
      · exact .inr rfl
      · exact .inr rfl
      · dsimp only
        split
        · exact .inl bare
        · split
          · refine .inl ⟨nofun, ?_, bare.linkless, ?_⟩
            · exact fun _ _ => bare.upgrades upgrade upgrading
            · rintro _ ⟨⟩
              have untouched := bare.untouched socket connected
              exact ⟨untouched.unwritten, untouched.closes⟩
          · exact .inr (agreeUpgrade_ended ..)
          · exact .inr rfl

theorem Bare.taskTurn (bare : endpoint.Bare) (now : Instant)
    (step : EndpointStep) :
    (endpoint.taskTurn now step).1.Bare ∨
      (endpoint.taskTurn now step).1.accepting = .ended := by
  cases step with
  | accept => exact bare.accept
  | acceptFails error =>
      change (endpoint.acceptFails error).1.Bare ∨
        (endpoint.acceptFails error).1.accepting = .ended
      unfold Endpoint.acceptFails
      split
      · exact .inr rfl
      · exact .inl bare
  | giveUpAccepting =>
      change endpoint.giveUpAccepting.1.Bare ∨
        endpoint.giveUpAccepting.1.accepting = .ended
      unfold Endpoint.giveUpAccepting
      split
      · exact .inr rfl
      · exact .inl bare
  | upgrade => exact bare.upgrade
  | receive most => exact .inl (bare.onLink _)
  | stopReceiving => exact .inl (bare.onLink _)
  | send room => exact .inl (bare.onLink _)
  | stopSending => exact .inl (bare.onLink _)
  | _ => exact .inl bare

theorem Bare.turn (bare : endpoint.Bare) (now : Instant)
    (step : EndpointStep) :
    (endpoint.turn now step).1.Bare ∨
      (endpoint.turn now step).1.accepting = .ended := by
  have task : (if endpoint.halted then (endpoint, [])
        else endpoint.taskTurn now step).1.Bare ∨
      (if endpoint.halted then (endpoint, [])
        else endpoint.taskTurn now step).1.accepting = .ended := by
    split
    · exact .inl bare
    · exact bare.taskTurn now step
  cases step with
  | connect addressKnown => exact .inl (bare.connect addressKnown)
  | arrive bytes =>
      exact .inl (bare.onSocket fun _ untouched => untouched.arrive bytes)
  | finish => exact .inl (bare.onSocket fun _ => Socket.Untouched.finish)
  | hangUp => exact .inl (bare.onSocket fun _ => Socket.Untouched.hangUp)
  | reset => exact .inl (bare.onSocket fun _ => Socket.Untouched.reset)
  | _ => exact task

theorem Bare.meet (bare : endpoint.Bare) (incident : Incident)
    (fair : incident.Fair) :
    (endpoint.meet incident).1.Bare ∨
      (endpoint.meet incident).1.accepting = .ended := by
  cases incident with
  | turn now step => exact bare.turn now step
  | farEnd change =>
      refine .inl (bare.onSocket fun socket untouched => ?_)
      obtain ⟨count, same⟩ := fair socket
      rw [same]
      exact ⟨untouched.unwritten, untouched.closes⟩
  | call made =>
      change (endpoint.perform made).1.Bare ∨ _
      unfold Endpoint.perform
      rw [bare.linkless]
      exact .inl bare
  | cancelAccept =>
      exact .inl ⟨bare.going, bare.upgrades, bare.linkless, bare.untouched⟩
  | cancelSession =>
      refine .inl ⟨bare.going, bare.upgrades, ?_, bare.untouched⟩
      exact congrArg (Option.map _) bare.linkless
  | halt => exact .inr rfl

theorem meet_accepted (accepted : endpoint.accepting = .ended)
    (incident : Incident) :
    (endpoint.meet incident).1.accepting = .ended := by
  have still {after : Endpoint} {events : List Event}
      (passes : Passes endpoint after events) : after.accepting = .ended := by
    cases passes with
    | goes _ accepting _ _ _ => exact accepting accepted
    | hands _ going _ _ _ _ _ => exact absurd accepted going
  cases incident with
  | turn now step => exact still (endpoint.turn_passes now step)
  | farEnd change => exact accepted
  | call made =>
      change (endpoint.perform made).1.accepting = .ended
      unfold Endpoint.perform
      split
      · exact accepted
      · split <;> exact accepted
  | cancelAccept => exact accepted
  | cancelSession => exact accepted
  | halt => rfl

theorem course_bare_or_accepted
    (stands : endpoint.Bare ∨ endpoint.accepting = .ended)
    (incidents : List Incident)
    (fair : ∀ incident ∈ incidents, incident.Fair) :
    (endpoint.course incidents).1.Bare ∨
      (endpoint.course incidents).1.accepting = .ended := by
  induction incidents generalizing endpoint with
  | nil => exact stands
  | cons incident rest inductionHypothesis =>
      rw [List.forall_mem_cons] at fair
      apply inductionHypothesis _ fair.2
      rcases stands with bare | accepted
      · exact bare.meet incident fair.1
      · exact .inr (meet_accepted accepted incident)

theorem bare_of_handed {transport : Transport} {opening : List Incident}
    {now : Instant} {step : EndpointStep} {connection : Connection}
    (fair : ∀ incident ∈ opening, incident.Fair)
    (handed : ((start transport).course opening).1.turn now step =
      (after, [.established connection])) :
    ((start transport).course opening).1.Bare := by
  have passes := ((start transport).course opening).1.turn_passes now step
  rw [handed] at passes
  refine (course_bare_or_accepted ?_ opening fair).resolve_right ?_
  · exact .inl (start_bare transport)
  · intro accepted
    cases passes with
    | goes _ _ nothing _ _ => cases nothing
    | hands _ going _ _ _ _ _ => exact going accepted

theorem handed_over_untouched {opening : List Incident} {now : Instant}
    {step : EndpointStep} {connection : Connection}
    (fair : ∀ incident ∈ opening, incident.Fair)
    (handed : ((start .rawTcp).course opening).1.turn now step =
      (after, [.established connection])) :
    connection = after.connection ∧
      ∃ socket : Socket, socket.Untouched ∧
        after.Serves (.begin .rawTcp
          ((start .rawTcp).course opening).1.sessionCancelled socket) := by
  obtain ⟨own, socket, serves, handsOn⟩ := handed_over handed
  have bare := bare_of_handed fair handed
  rw [course_transport] at serves
  refine ⟨own, socket, ?_, serves⟩
  cases handsOn with
  | waited _ connected => exact bare.untouched socket connected
  | upgraded upgrade _ _ upgrading =>
      have transport := bare.upgrades upgrade upgrading
      rw [course_transport] at transport
      cases transport

end Endpoint

end LatencyBench

/-
What the handle of a connection promises.

Whoever holds the handle may call it in any order and as often as it likes,
while the peer, the tasks and the runtime do what they do.  The receive loop
starts once at most, and closing takes effect once: from then on the
connection is over and stays literally as it is.
-/

import LatencyBench.Proofs.Wire.Serving

namespace LatencyBench

open Net

/-! ### A connection that is over -/

namespace Link

/-- A connection that has been closed: called off, with no receive loop kept,
no task left, and nothing handed to the sending task. -/
structure Shut (link : Link) : Prop where
  closed : link.closed = true
  cancelled : link.cancelled = true
  receiving : link.receiving = .ended
  sending : link.sending = .ended
  outbox : link.outbox = []

variable {link : Link}

theorem close_shut (opened : link.closed = false) : link.close.Shut := by
  rw [close, if_neg (by simp [opened])]
  exact ⟨rfl, rfl, rfl, rfl, rfl⟩

theorem Shut.arm (shut : link.Shut) : link.arm = link := by
  rw [Link.arm, if_pos shut.closed]

theorem Shut.close (shut : link.Shut) : link.close = link :=
  link.close_of_closed shut.closed

theorem Shut.post (shut : link.Shut) (payload : Payload) :
    link.post payload = (link, [.failed .closed]) := by
  rw [Link.post, if_pos (.inl shut.closed)]

theorem Shut.perform (shut : link.Shut) (call : Call) :
    (link.perform call).1 = link := by
  cases call with
  | arm => exact shut.arm
  | send payload => exact congrArg Prod.fst (shut.post payload)
  | close => exact shut.close
  | drop => exact shut.close

theorem Shut.receive (shut : link.Shut) (socket : Socket) (most : Nat)
    (now : Instant) :
    link.receive socket most now =
      { link := link
        socket := socket } := by
  simp only [Link.receive, shut.receiving]

theorem Shut.stopReceiving (shut : link.Shut) : link.stopReceiving = link := by
  apply if_neg
  rw [shut.receiving]
  exact nofun

theorem Shut.send (shut : link.Shut) (socket : Socket) (room : Nat) :
    link.send socket room =
      { link := link
        socket := socket } := by
  simp only [Link.send, shut.sending]

theorem Shut.stopSending (shut : link.Shut) (socket : Socket) :
    link.stopSending socket =
      { link := link
        socket := socket } := by
  apply if_neg
  rw [shut.sending]
  exact nofun

theorem Shut.cancel (shut : link.Shut) :
    { link with cancelled := true } = link := by
  have cancelled := shut.cancelled
  cases link
  cases cancelled
  rfl

theorem Shut.halt (shut : link.Shut) : link.halt = link := by
  rcases shut with ⟨_, _, receiving, sending, outbox⟩
  cases link
  cases receiving
  cases sending
  cases outbox
  rfl

/-! ### How a handle has been used -/

/-- What a connection is once its handle has been used so far: armed before it
was closed or not, and closed or not. -/
inductive Used (link : Link) : (armed released : Bool) → Prop where
  | not (unused : link.Unused) : Used link false false
  | armed (opened : link.closed = false)
      (begun : link.receiving ≠ .parked) : Used link true false
  | released {armed : Bool} (shut : link.Shut) : Used link armed true

variable {later : Link} {armed released : Bool}

theorem Used.closed (used : link.Used armed released) :
    link.closed = released := by
  cases used with
  | not unused => exact unused.closed
  | armed opened _ => exact opened
  | released shut => exact shut.closed

theorem Used.shut (used : link.Used armed true) : link.Shut := by
  cases used with
  | released shut => exact shut

def starts (before after : Link) : Bool :=
  before.receiving != .running && after.receiving == .running

theorem starts_self (link : Link) : link.starts link = false := by
  simp [starts]

/-! ### What happens without a call -/

/-- What can become of the receive loop of a connection without a call. -/
structure Onward (before after : Link) : Prop where
  closed : after.closed = before.closed
  receiving : after.receiving = before.receiving ∨
    before.receiving = .running ∧ after.receiving = .ended

variable {before after : Link}

theorem onward_refl (link : Link) : link.Onward link := ⟨rfl, .inl rfl⟩

theorem Spares.onward (spares : before.Spares after) : before.Onward after :=
  ⟨spares.closed, .inl spares.receiving⟩

theorem onward_of_ended (running : before.receiving = .running)
    (closed : after.closed = before.closed)
    (ended : after.receiving = .ended) : before.Onward after :=
  ⟨closed, .inr ⟨running, ended⟩⟩

theorem answer_receiving (link : Link) (socket : Socket)
    (bytes : List UInt8) :
    (link.answer socket bytes).2.1.receiving = link.receiving := by
  unfold answer
  split <;> rfl

theorem actOn_receiving (link : Link) (socket : Socket) (now : Instant)
    (received : List Received) :
    (link.actOn socket now received).link.receiving = link.receiving ∨
      (link.actOn socket now received).link.receiving = .ended := by
  induction received generalizing link socket with
  | nil => exact .inl rfl
  | cons first rest inductionHypothesis =>
      cases first with
      | message payload => exact inductionHypothesis link socket
      | answer bytes =>
          have same := link.answer_receiving socket bytes
          unfold actOn
          generalize link.answer socket bytes = answered at same ⊢
          rcases answered with ⟨result, next, written⟩
          cases result with
          | error error => exact .inr rfl
          | ok _ => exact same ▸ inductionHypothesis next written
      | farewell answer => exact .inr rfl
      | fault fault => exact .inr rfl

theorem meetEnd_receiving (step : LinkStep) :
    (meetEnd step).link.receiving = step.link.receiving ∨
      (meetEnd step).link.receiving = .ended := by
  unfold meetEnd
  split
  · exact .inr rfl
  · exact .inl rfl

theorem acted_receiving (link : Link) (socket : Socket) (now : Instant)
    (received : List Received) :
    (meetEnd (link.actOn socket now received)).link.receiving =
        link.receiving ∨
      (meetEnd (link.actOn socket now received)).link.receiving = .ended := by
  rcases meetEnd_receiving (link.actOn socket now received) with same | ended
  · rw [same]
    exact link.actOn_receiving socket now received
  · exact .inr ended

theorem receive_onward (link : Link) (socket : Socket) (most : Nat)
    (now : Instant) : link.Onward (link.receive socket most now).link := by
  refine ⟨(link.receive_goes socket most now).closed, ?_⟩
  unfold receive
  split
  case h_1 running =>
      exact (acted_receiving _ _ now _).imp_right fun ended =>
        ⟨running, ended⟩
  case h_2 => exact .inl rfl

theorem stopReceiving_onward (link : Link) :
    link.Onward link.stopReceiving := by
  unfold stopReceiving
  split
  case isTrue called => exact onward_of_ended called.2 rfl rfl
  case isFalse => exact link.onward_refl

theorem halt_onward (link : Link) : link.Onward link.halt := by
  refine ⟨rfl, ?_⟩
  cases receiving : link.receiving with
  | parked => simp [halt, receiving]
  | running => simp [halt, receiving]
  | ended => simp [halt, receiving]

theorem Used.onward (used : link.Used armed false)
    (onward : link.Onward later) :
    later.Used armed false ∧ link.starts later = false := by
  rcases onward with ⟨closed, receiving⟩
  cases used with
  | not unused =>
      have parked : later.receiving = .parked := by
        rcases receiving with same | ⟨running, _⟩
        · exact same.trans unused.receiving
        · rw [unused.receiving] at running
          cases running
      refine ⟨.not ⟨closed.trans unused.closed, parked⟩, ?_⟩
      simp [starts, parked]
  | armed opened begun =>
      rcases receiving with same | ⟨running, ended⟩
      · refine ⟨.armed (closed.trans opened) (same ▸ begun), ?_⟩
        simp [starts, same]
      · refine ⟨.armed (closed.trans opened) (by simp [ended]), ?_⟩
        simp [starts, ended]

/-! ### Calls -/

theorem Used.arm_again (used : link.Used armed released)
    (again : armed = true ∨ released = true) : link.arm = link := by
  cases used with
  | not => simp at again
  | armed opened begun =>
      unfold Link.arm
      split
      · rfl
      · split
        · contradiction
        · rfl
  | released shut => exact shut.arm

theorem Used.arm (used : link.Used armed false) :
    link.arm.Used true false ∧ link.starts link.arm = !armed := by
  cases used with
  | not unused =>
      have running : link.arm = { link with receiving := .running } := by
        simp [Link.arm, unused.closed, unused.receiving]
      rw [running]
      refine ⟨.armed unused.closed (by simp), ?_⟩
      simp [starts, unused.receiving]
  | armed opened begun =>
      rw [(Used.armed opened begun).arm_again (.inl rfl)]
      exact ⟨.armed opened begun, link.starts_self⟩

theorem Shut.starts {shut : Link} (isShut : shut.Shut) :
    link.starts shut = false := by
  simp [Link.starts, isShut.receiving]

end Link

def Incident.releases (connection : Connection) : Incident → Bool
  | .call made =>
      decide (made = connection.does .close ∨ made = connection.does .drop)
  | _ => false

/-- Whether a connection is armed before it is closed. -/
def armedInTime (connection : Connection) (incidents : List Incident) : Bool :=
  (incidents.takeWhile fun incident => !incident.releases connection).any
    (Incident.arms connection)

section Uses

variable {connection : Connection} {incident : Incident}

theorem Incident.not_releases_of_arms
    (arms : incident.arms connection = true) :
    incident.releases connection = false := by
  cases incident with
  | call made =>
      have armed : made = connection.does .arm := of_decide_eq_true arms
      simp [releases, armed, Connection.does]
  | _ => cases arms

theorem Incident.not_arms_of_releases
    (releases : incident.releases connection = true) :
    incident.arms connection = false := by
  cases arms : incident.arms connection with
  | false => rfl
  | true =>
      rw [not_releases_of_arms arms] at releases
      cases releases

theorem armedInTime_cons (connection : Connection) (incident : Incident)
    (rest : List Incident) :
    armedInTime connection (incident :: rest) =
      (incident.arms connection ||
        (!incident.releases connection && armedInTime connection rest)) := by
  unfold armedInTime
  rw [List.takeWhile_cons]
  cases releases : incident.releases connection with
  | false => rfl
  | true =>
      rw [Incident.not_arms_of_releases releases]
      rfl

theorem armedInTime_or_released {incidents : List Incident}
    (armed : incidents.any (Incident.arms connection) = true) :
    armedInTime connection incidents = true ∨
      incidents.any (Incident.releases connection) = true := by
  induction incidents with
  | nil => cases armed
  | cons incident rest inductionHypothesis =>
      rw [List.any_cons, Bool.or_eq_true] at armed
      rw [armedInTime_cons, List.any_cons]
      cases arms : incident.arms connection with
      | true => exact .inl rfl
      | false =>
          cases incident.releases connection with
          | true => exact .inr rfl
          | false =>
              rw [arms] at armed
              exact inductionHypothesis (armed.resolve_left nofun)

end Uses

/-! ### Incidents -/

section Incidents

variable {served : Served} {armed released : Bool}

theorem Served.onLink_still (served : Served)
    {turn : Link → Socket → LinkStep}
    (kept : (turn served.link served.socket).link = served.link) :
    (served.onLink turn).1.link = served.link := by
  unfold Served.onLink
  split
  · rfl
  · exact kept

theorem Link.Shut.meet (shut : served.link.Shut) (connection : Connection)
    (incident : Incident) :
    (served.meet connection incident).1.link = served.link := by
  cases incident with
  | turn now step =>
      cases step with
      | receive most =>
          exact served.onLink_still
            (congrArg _ (shut.receive served.socket most now))
      | stopReceiving => exact served.onLink_still shut.stopReceiving
      | send room =>
          exact served.onLink_still
            (congrArg _ (shut.send served.socket room))
      | stopSending =>
          exact served.onLink_still
            (congrArg _ (shut.stopSending served.socket))
      | _ => rfl
  | farEnd change => rfl
  | call made =>
      rw [Served.meet]
      split
      · exact shut.perform made.call
      · rfl
  | cancelAccept => rfl
  | cancelSession => exact shut.cancel
  | halt => exact shut.halt

structure Link.Advances (connection : Connection) (incident : Incident)
    (armed released : Bool) (before after : Link) : Prop where
  used : after.Used (armed || (!released && incident.arms connection))
    (released || incident.releases connection)
  starts : before.starts after =
    (!armed && !released && incident.arms connection)

variable {link later : Link} {connection : Connection} {incident : Incident}

theorem Link.Shut.advances (shut : link.Shut) (armed : Bool) :
    link.Advances connection incident armed true link where
  used := .released shut
  starts := by
    rw [Bool.not_true, Bool.and_false]
    exact link.starts_self

theorem Link.advances_of_uncalled
    (arms : incident.arms connection = false)
    (releases : incident.releases connection = false)
    (kept : later.Used armed false ∧ link.starts later = false) :
    link.Advances connection incident armed false later := by
  constructor
  · rw [arms, releases, Bool.and_false, Bool.or_false]
    exact kept.1
  · rw [arms, Bool.and_false]
    exact kept.2

theorem Link.Used.turns (used : served.link.Used armed false)
    {turn : Link → Socket → LinkStep}
    (onward : served.link.Onward (turn served.link served.socket).link) :
    (served.onLink turn).1.link.Used armed false ∧
      served.link.starts (served.onLink turn).1.link = false := by
  unfold Served.onLink
  split
  · exact ⟨used, served.link.starts_self⟩
  · exact used.onward onward

theorem Link.Used.turn (used : served.link.Used armed false) (now : Instant)
    (step : EndpointStep) :
    (served.turn now step).1.link.Used armed false ∧
      served.link.starts (served.turn now step).1.link = false := by
  cases step with
  | receive most =>
      exact used.turns (served.link.receive_onward served.socket most now)
  | stopReceiving => exact used.turns served.link.stopReceiving_onward
  | send room =>
      exact used.turns (served.link.send_spared served.socket room).onward
  | stopSending =>
      exact used.turns (served.link.stopSending_spared served.socket).onward
  | _ => exact ⟨used, served.link.starts_self⟩

theorem Link.Used.releases (used : link.Used armed false)
    (releases : incident.releases connection = true) :
    link.Advances connection incident armed false link.close := by
  have shut := close_shut used.closed
  constructor
  · rw [releases, Bool.or_true]
    exact .released shut
  · rw [Incident.not_arms_of_releases releases, Bool.and_false]
    exact shut.starts

theorem Link.Used.perform (used : link.Used armed false)
    (connection : Connection) (call : Call) :
    link.Advances connection (.call (connection.does call)) armed false
      (link.perform call).1 := by
  cases call with
  | arm =>
      have arms : Incident.arms connection
          (.call (connection.does .arm)) = true := decide_eq_true rfl
      constructor
      · rw [arms, Incident.not_releases_of_arms arms, Bool.or_false,
          Bool.not_false, Bool.true_and, Bool.or_true]
        exact used.arm.1
      · rw [arms, Bool.not_false, Bool.and_true, Bool.and_true]
        exact used.arm.2
  | send payload =>
      apply Link.advances_of_uncalled
      · simp [Incident.arms, Connection.does]
      · simp [Incident.releases, Connection.does]
      · exact used.onward (link.post_spares payload).onward
  | close => exact used.releases (decide_eq_true (.inl rfl))
  | drop => exact used.releases (decide_eq_true (.inr rfl))

/-- The step lemma. -/
theorem Link.Used.meet (used : served.link.Used armed released)
    (connection : Connection) (incident : Incident) :
    served.link.Advances connection incident armed released
      (served.meet connection incident).1.link := by
  cases released with
  | true =>
      rw [used.shut.meet]
      exact used.shut.advances armed
  | false =>
      have still := And.intro used served.link.starts_self
      cases incident with
      | call made =>
          rcases made with ⟨other, call⟩
          by_cases own : other = connection
          · subst own
            rw [Served.meet, if_pos rfl]
            exact used.perform other call
          · rw [Served.meet, if_neg own]
            apply Link.advances_of_uncalled _ _ still
            · simp [Incident.arms, Connection.does, own]
            · simp [Incident.releases, Connection.does, own]
      | turn now step =>
          exact Link.advances_of_uncalled rfl rfl (used.turn now step)
      | farEnd change => exact Link.advances_of_uncalled rfl rfl still
      | cancelAccept => exact Link.advances_of_uncalled rfl rfl still
      | cancelSession =>
          apply Link.advances_of_uncalled rfl rfl
          exact used.onward ⟨rfl, .inl rfl⟩
      | halt =>
          apply Link.advances_of_uncalled rfl rfl
          exact used.onward served.link.halt_onward

end Incidents

namespace Endpoint

variable {endpoint : Endpoint} {served : Served} {armed released : Bool}

def startsIn (endpoint : Endpoint) (incident : Incident) : Bool :=
  match endpoint.link, (endpoint.meet incident).1.link with
  | some before, some after => before.starts after
  | _, _ => false

def starts (endpoint : Endpoint) : List Incident → Nat
  | [] => 0
  | incident :: rest =>
      (endpoint.startsIn incident).toNat +
        (endpoint.meet incident).1.starts rest

theorem Serves.startsIn (serves : endpoint.Serves served)
    (incident : Incident) :
    endpoint.startsIn incident =
      served.link.starts
        (served.meet endpoint.connection incident).1.link := by
  unfold Endpoint.startsIn
  rw [serves.linked, (serves.meet incident).1.linked]

/-- The run lemma: how a handle has been used is told by the calls alone. -/
theorem Serves.used_course (serves : endpoint.Serves served)
    (used : served.link.Used armed released) (incidents : List Incident) :
    ∃ later, (endpoint.course incidents).1.Serves later ∧
      later.link.Used
        (armed || (!released && armedInTime endpoint.connection incidents))
        (released ||
          incidents.any (Incident.releases endpoint.connection)) ∧
      endpoint.starts incidents =
        (!armed && !released &&
          armedInTime endpoint.connection incidents).toNat := by
  induction incidents generalizing endpoint served armed released with
  | nil =>
      refine ⟨served, serves, ?_, ?_⟩
      · simpa [armedInTime] using used
      · simp [armedInTime, Endpoint.starts]
  | cons incident rest inductionHypothesis =>
      have advances := used.meet endpoint.connection incident
      obtain ⟨later, still, usedLater, starts⟩ :=
        inductionHypothesis (serves.meet incident).1 advances.used
      rw [meet_connection] at usedLater starts
      refine ⟨later, still, ?_, ?_⟩
      · rw [armedInTime_cons, List.any_cons, ← Bool.or_assoc]
        convert usedLater using 1
        cases arms : incident.arms endpoint.connection with
        | false => simp [Bool.and_assoc]
        | true =>
            rw [Incident.not_releases_of_arms arms]
            cases armed <;> cases released <;> rfl
      · rw [Endpoint.starts, serves.startsIn, advances.starts, starts,
          armedInTime_cons]
        cases arms : incident.arms endpoint.connection with
        | false => simp [Bool.and_assoc]
        | true =>
            rw [Incident.not_releases_of_arms arms]
            cases armed <;> cases released <;> rfl

/-- A connection that has been closed stays as it is, whatever happens. -/
theorem Serves.shut_course (serves : endpoint.Serves served)
    (shut : served.link.Shut) (incidents : List Incident) :
    (endpoint.course incidents).1.link = some served.link := by
  induction incidents generalizing endpoint served with
  | nil => exact serves.linked
  | cons incident rest inductionHypothesis =>
      have same := shut.meet endpoint.connection incident
      rw [← same]
      exact inductionHypothesis (serves.meet incident).1 (same ▸ shut)

theorem perform_still {link : Link} {call : Call}
    (linked : endpoint.link = some link)
    (still : (link.perform call).1 = link) :
    endpoint.meet (.call (endpoint.connection.does call)) =
      (endpoint, (link.perform call).2) := by
  rw [Endpoint.meet, Endpoint.perform, linked]
  refine (if_pos rfl).trans ?_
  change ({ endpoint with link := some (link.perform call).1 }, _) = _
  rw [still, ← linked]
  rfl

/-- A connection is handed over; then its handle is called in any order,
amid anything else that can happen.  The receive loop has started once if the
connection was armed before it was closed, and else never; to arm it again or
when it is closed does nothing.  It is closed once somebody closes it or lets
go of its handle, which comes to the same; from then on it is called off, has
no receive loop, no task and nothing to send, stays so, and answers each
payload with one fault. -/
theorem handle_keeps_discipline {transport : Transport}
    {opening earlier : List Incident} {endpoint reached : Endpoint}
    {now : Instant} {step : EndpointStep} {connection : Connection}
    (handed : ((start transport).course opening).1.turn now step =
      (endpoint, [.established connection]))
    (reaches : reached = (endpoint.course earlier).1) :
    endpoint.starts earlier = (armedInTime connection earlier).toNat ∧
      (earlier.any (Incident.arms connection) = true ∨
          earlier.any (Incident.releases connection) = true →
        reached.meet (.call (connection.does .arm)) = (reached, [])) ∧
      reached.meet (.call (connection.does .drop)) =
        reached.meet (.call (connection.does .close)) ∧
      ∃ link, reached.link = some link ∧
        link.closed = earlier.any (Incident.releases connection) ∧
        (link.closed = true →
          link.Shut ∧
          (∀ later, (reached.course later).1.link = some link) ∧
          reached.meet (.call (connection.does .close)) = (reached, []) ∧
          ∀ payload,
            reached.meet (.call (connection.does (.send payload))) =
              (reached, [.failed .closed])) := by
  obtain ⟨own, socket, serves, _⟩ := handed_over handed
  obtain ⟨later, still, usedLater, starts⟩ :=
    serves.used_course (.not ⟨rfl, rfl⟩) earlier
  subst own
  rw [← reaches] at still
  simp only [Bool.false_or, Bool.not_false, Bool.true_and] at usedLater starts
  have same : reached.connection = endpoint.connection := by
    rw [reaches, course_connection]
  rw [← same] at starts usedLater ⊢
  refine ⟨starts, ?_, ?_, later.link, still.linked, usedLater.closed, ?_⟩
  · intro again
    refine perform_still still.linked (usedLater.arm_again ?_)
    exact again.elim armedInTime_or_released .inr
  · rfl
  · intro closed
    rw [usedLater.closed] at closed
    rw [closed] at usedLater
    have shut := usedLater.shut
    refine ⟨shut, still.shut_course shut, ?_, ?_⟩
    · exact perform_still still.linked shut.close
    · intro payload
      rw [perform_still still.linked (shut.perform _), Link.perform,
        shut.post]

/-! ### A handle used in every way -/

def acceptance : Endpoint × List Event :=
  ((start .rawTcp).course [.turn 0 (.connect true)]).1.turn 1 .accept

/-- Every call is made twice, once before the connection is closed and once
after that; a piece of a message has been read in between. -/
def everyCall : List Incident :=
  let call := fun call => Incident.call ((start .rawTcp).connection.does call)
  [call .arm, call (.send [1]), .turn 2 (.arrive [7]), .turn 3 (.receive 1),
   call .arm, call .close, call .arm, call (.send [2]), call .drop]

theorem everyCall_disciplined :
    acceptance.1.starts everyCall = 1 ∧
      ∃ link, (acceptance.1.course everyCall).1.link = some link ∧
        link.Shut := by
  have handed : acceptance =
      (acceptance.1, [.established (start .rawTcp).connection]) :=
    Prod.ext rfl (by decide)
  obtain ⟨starts, _, _, link, linked, closed, once⟩ :=
    @handle_keeps_discipline .rawTcp _ everyCall _ _ 1 .accept _ handed rfl
  refine ⟨starts.trans (by decide), link, linked, ?_⟩
  exact (once (closed.trans (by decide))).1

end Endpoint

end LatencyBench

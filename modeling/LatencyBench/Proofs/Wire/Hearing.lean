/-
What an armed reader hears.

Everything that has come from a peer is an inflow of bytes that may be over.
While the receiving task goes on, it has read part of the inflow and reported
what its receive loop makes of that part; the rest waits at the socket.  Once
it has ended, it has reported what the whole inflow comes to, and whatever
still happens adds nothing to that.
-/

import LatencyBench.Proofs.Wire.Reader

namespace LatencyBench

open Net WebSocket

/-! ### What comes from a peer -/

/-- Everything that has come from a peer, and whether it sends no more. -/
structure Inflow where
  bytes : List UInt8
  finished : Bool
deriving DecidableEq, Repr

namespace Inflow

def arrive (inflow : Inflow) (bytes : List UInt8) : Inflow :=
  if inflow.finished then inflow
  else { inflow with bytes := inflow.bytes ++ bytes }

def finish (inflow : Inflow) : Inflow :=
  { inflow with finished := true }

def after (inflow : Inflow) : Incident → Inflow
  | .turn _ (.arrive bytes) => inflow.arrive bytes
  | .turn _ .finish => inflow.finish
  | .turn _ .hangUp => inflow.finish
  | _ => inflow

def through (inflow : Inflow) (incidents : List Incident) : Inflow :=
  incidents.foldl after inflow

def received (inflow : Inflow) : List Received :=
  ((Intake.start .webSocket).feed inflow.bytes).2

/-- What there is to report of an inflow, without the dates: what the receive
loop reports, and the end of the stream if that comes first. -/
def told (inflow : Inflow) : List Event :=
  reported 0 inflow.received ++
    if inflow.finished && !ends inflow.received then [.failed .closed] else []

def isOver (inflow : Inflow) : Bool :=
  inflow.finished || ends inflow.received

variable {inflow : Inflow}

theorem told_open (bytes : List UInt8) :
    told
      { bytes := bytes
        finished := false } =
      reported 0 ((Intake.start .webSocket).feed bytes).2 :=
  List.append_nil _

/-- Once an inflow is over, nothing that comes in matters. -/
theorem arrive_over (isOver : inflow.isOver = true) (bytes : List UInt8) :
    (inflow.arrive bytes).isOver = true ∧
      (inflow.arrive bytes).told = inflow.told := by
  rcases inflow with ⟨seen, finished⟩
  cases finished with
  | true => exact ⟨isOver, rfl⟩
  | false =>
      have ended : ends ((Intake.start .webSocket).feed seen).2 = true :=
        isOver
      change ends ((Intake.start .webSocket).feed (seen ++ bytes)).2 = true ∧
        told
          { bytes := seen ++ bytes
            finished := false } = _
      rw [told_open, told_open, Intake.feed_append, ends_append,
        reported_append, ended]
      exact ⟨rfl, rfl⟩

theorem finish_over (isOver : inflow.isOver = true) :
    inflow.finish.isOver = true ∧ inflow.finish.told = inflow.told := by
  refine ⟨rfl, ?_⟩
  rcases inflow with ⟨seen, finished⟩
  cases finished with
  | true => rfl
  | false =>
      have ended : ends ((Intake.start .webSocket).feed seen).2 = true :=
        isOver
      simp only [told, finish, received, ended, Bool.not_true, Bool.and_false]

theorem after_over (isOver : inflow.isOver = true) (incident : Incident) :
    (inflow.after incident).isOver = true ∧
      (inflow.after incident).told = inflow.told := by
  unfold after
  split
  · exact arrive_over isOver _
  · exact finish_over isOver
  · exact finish_over isOver
  · exact ⟨isOver, rfl⟩

end Inflow

/-! ### What is heard -/

def Event.undated : Event → Event
  | .received payload _ => .received payload 0
  | event => event

theorem undated_reported (now : Instant) (received : List Received) :
    (reported now received).map Event.undated = reported 0 received := by
  induction received with
  | nil => rfl
  | cons item rest inductionHypothesis =>
      cases item with
      | message payload =>
          exact congrArg (Event.received payload 0 :: ·) inductionHypothesis
      | answer bytes => exact inductionHypothesis
      | farewell answer => rfl
      | fault fault => rfl

/-- Whether an incident neither aborts the stream nor calls anything off. -/
def Incident.Peaceful : Incident → Prop
  | .turn _ .reset => False
  | .turn _ _ => True
  | .farEnd change => ∀ socket : Socket, socket.Alike (change socket)
  | .call made =>
      match made.call with
      | .arm => True
      | .send _ => True
      | _ => False
  | .cancelAccept => True
  | .cancelSession => False
  | .halt => False

theorem Incident.Peaceful.isHalt {incident : Incident}
    (peaceful : incident.Peaceful) : incident.isHalt = false := by
  cases incident with
  | halt => exact absurd peaceful id
  | _ => rfl

def Incident.isReceive : Incident → Bool
  | .turn _ (.receive _) => true
  | _ => false

/-- Whether an incident arms a connection. -/
def Incident.arms (connection : Connection) : Incident → Bool
  | .call made => decide (made = connection.does .arm)
  | _ => false

namespace Endpoint

def hears (endpoint : Endpoint) (incident : Incident) : List Event :=
  if incident.isReceive then (endpoint.meet incident).2 else []

/-- Everything that the receiving task reports in the course of many
incidents. -/
def heard (endpoint : Endpoint) : List Incident → List Event
  | [] => []
  | incident :: rest =>
      endpoint.hears incident ++ (endpoint.meet incident).1.heard rest

def answersIn (endpoint : Endpoint) : Incident → Bool
  | .turn _ (.receive most) =>
      match endpoint.link, endpoint.socket with
      | some link, some socket =>
          link.receiving != .running || link.answersIn socket most
      | _, _ => true
  | _ => true

/-- Whether the receiving task can write its answers all the time. -/
def answersThrough (endpoint : Endpoint) : List Incident → Bool
  | [] => true
  | incident :: rest =>
      endpoint.answersIn incident &&
        (endpoint.meet incident).1.answersThrough rest

theorem heard_append (endpoint : Endpoint) (first later : List Incident) :
    endpoint.heard (first ++ later) =
      endpoint.heard first ++ (endpoint.course first).1.heard later := by
  induction first generalizing endpoint with
  | nil => rfl
  | cons incident rest inductionHypothesis =>
      simp only [List.cons_append, heard, course, inductionHypothesis,
        List.append_assoc]

theorem answersThrough_append (endpoint : Endpoint)
    (first later : List Incident) :
    endpoint.answersThrough (first ++ later) =
      (endpoint.answersThrough first &&
        (endpoint.course first).1.answersThrough later) := by
  induction first generalizing endpoint with
  | nil => rfl
  | cons incident rest inductionHypothesis =>
      simp only [List.cons_append, answersThrough, course,
        inductionHypothesis, Bool.and_assoc]

/-! ### After the end -/

/-- Whether a transport will never hear anything any more. -/
structure Deaf (endpoint : Endpoint) : Prop where
  accepted : endpoint.accepting = .ended
  silent : ∀ link, endpoint.link = some link → link.receiving = .ended

variable {endpoint before after : Endpoint}

theorem Deaf.passes (deaf : before.Deaf) {events : List Event}
    (passes : Passes before after events) : after.Deaf := by
  cases passes with
  | goes _ accepting _ bare linked =>
      refine ⟨accepting deaf.accepted, ?_⟩
      intro link held
      cases had : before.link with
      | none =>
          rw [bare had] at held
          cases held
      | some earlier =>
          obtain ⟨later, here, goes⟩ := linked earlier had
          rw [here] at held
          cases held
          exact goes.ended (deaf.silent earlier had)
  | hands _ going _ _ _ _ _ => exact absurd deaf.accepted going

theorem perform_ended {link : Link} (ended : link.receiving = .ended)
    (call : Call) : (link.perform call).1.receiving = .ended := by
  cases call with
  | arm =>
      simp only [Link.perform, Link.arm, ended]
      split <;> exact ended
  | send payload =>
      exact (link.post_spares payload).receiving.trans ended
  | close =>
      simp only [Link.perform, Link.close]
      split
      · exact ended
      · rfl
  | drop =>
      simp only [Link.perform, Link.close]
      split
      · exact ended
      · rfl

theorem Deaf.perform (deaf : endpoint.Deaf) (made : ConnectionCall) :
    (endpoint.perform made).1.Deaf := by
  unfold Endpoint.perform
  split
  case h_1 => exact deaf
  case h_2 link linked =>
      split
      · refine ⟨deaf.accepted, ?_⟩
        rintro _ ⟨⟩
        exact perform_ended (deaf.silent link linked) made.call
      · exact deaf

theorem Deaf.meet (deaf : endpoint.Deaf) (incident : Incident) :
    (endpoint.meet incident).1.Deaf := by
  cases incident with
  | turn now step => exact deaf.passes (endpoint.turn_passes now step)
  | farEnd change => exact deaf.passes (endpoint.onSocket_passes change)
  | call made => exact deaf.perform made
  | cancelAccept => exact ⟨deaf.accepted, deaf.silent⟩
  | cancelSession => exact deaf.passes endpoint.cancelSession_passes
  | halt => exact deaf.passes endpoint.halt_passes

theorem Deaf.hears (deaf : endpoint.Deaf) (incident : Incident) :
    endpoint.hears incident = [] := by
  unfold Endpoint.hears
  split
  case isFalse => rfl
  case isTrue isReceive =>
      match incident, isReceive with
      | .turn now (.receive most), _ =>
          change (if endpoint.halted then (endpoint, [])
            else endpoint.onLink _).2 = []
          split
          · rfl
          · unfold onLink
            split
            case h_1 link socket linked _ =>
                simp only [Link.receive, deaf.silent link linked]
            case h_2 => rfl

theorem Deaf.heard (deaf : endpoint.Deaf) (incidents : List Incident) :
    endpoint.heard incidents = [] := by
  induction incidents generalizing endpoint with
  | nil => rfl
  | cons incident rest inductionHypothesis =>
      rw [Endpoint.heard, deaf.hears incident,
        inductionHypothesis (deaf.meet incident)]
      rfl

/-! ### While the receiving task goes on -/

structure Attends (endpoint : Endpoint) (link : Link) (socket : Socket) :
    Prop where
  transport : endpoint.transport = .webSocket
  linked : endpoint.link = some link
  connected : endpoint.socket = some socket
  accepted : endpoint.accepting = .ended
  lasting : endpoint.halted = false
  opened : link.closed = false
  going : link.cancelled = false

structure Reads (inflow : Inflow) (armed : Bool) (read : List UInt8)
    (link : Link) (socket : Socket) : Prop where
  receiving : link.receiving = if armed then .running else .parked
  intake : link.intake = ((Intake.start .webSocket).feed read).1
  goesOn : ends ((Intake.start .webSocket).feed read).2 = false
  waiting : inflow.bytes = read ++ socket.inbound
  ending : socket.ending = if inflow.finished then some .finished else none

variable {link later : Link} {socket next : Socket} {inflow : Inflow}
  {armed : Bool} {read : List UInt8}

theorem Reads.orderly (reads : Reads inflow armed read link socket) :
    socket.Orderly := by
  intro error failed
  rw [reads.ending] at failed
  split at failed <;> cases failed

theorem Reads.spared (reads : Reads inflow armed read link socket)
    (spares : link.Spares later) (alike : socket.Alike next) :
    Reads inflow armed read later next where
  receiving := spares.receiving.trans reads.receiving
  intake := spares.intake.trans reads.intake
  goesOn := reads.goesOn
  waiting := by rw [reads.waiting, alike.inbound]
  ending := alike.ending.trans reads.ending

theorem Reads.arm (reads : Reads inflow armed read link socket)
    (opened : link.closed = false) :
    Reads inflow true read link.arm socket ∧ link.arm.closed = false ∧
      link.arm.cancelled = link.cancelled := by
  have receiving := reads.receiving
  unfold Link.arm
  rw [if_neg (by simp [opened])]
  cases armed with
  | true =>
      rw [if_pos rfl] at receiving
      rw [receiving]
      exact ⟨reads, opened, rfl⟩
  | false =>
      rw [if_neg Bool.false_ne_true] at receiving
      rw [receiving]
      exact ⟨⟨rfl, reads.intake, reads.goesOn, reads.waiting, reads.ending⟩,
        opened, rfl⟩

theorem Reads.arrive (reads : Reads inflow armed read link socket)
    (bytes : List UInt8) :
    Reads (inflow.arrive bytes) armed read link (socket.arrive bytes) := by
  have waiting := reads.waiting
  have ending := reads.ending
  unfold Inflow.arrive Socket.arrive
  cases finished : inflow.finished with
  | true =>
      rw [finished, if_pos rfl] at ending
      rw [ending, if_pos rfl]
      exact reads
  | false =>
      rw [finished, if_neg Bool.false_ne_true] at ending
      rw [ending, if_neg Bool.false_ne_true]
      refine ⟨reads.receiving, reads.intake, reads.goesOn, ?_, ?_⟩
      · simp only [waiting, List.append_assoc]
      · rfl

theorem Reads.finish (reads : Reads inflow armed read link socket) :
    Reads inflow.finish armed read link socket.finish := by
  have ending := reads.ending
  refine ⟨reads.receiving, reads.intake, reads.goesOn, reads.waiting, ?_⟩
  simp only [Socket.finish, Inflow.finish, ending]
  cases inflow.finished <;> rfl

theorem Attends.onSocket (attends : endpoint.Attends link socket)
    (change : Socket → Socket) :
    (endpoint.onSocket change).Attends link (change socket) where
  transport := attends.transport
  linked := attends.linked
  connected := congrArg (Option.map change) attends.connected
  accepted := attends.accepted
  lasting := attends.lasting
  opened := attends.opened
  going := attends.going

theorem Attends.onLink (attends : endpoint.Attends link socket)
    (turn : Link → Socket → LinkStep)
    (closed : (turn link socket).link.closed = link.closed)
    (cancelled : (turn link socket).link.cancelled = link.cancelled) :
    (endpoint.onLink turn).1.Attends (turn link socket).link
        (turn link socket).socket ∧
      (endpoint.onLink turn).2 = (turn link socket).events := by
  unfold Endpoint.onLink
  rw [attends.linked, attends.connected]
  refine ⟨?_, rfl⟩
  exact
    { transport := attends.transport
      linked := rfl
      connected := rfl
      accepted := attends.accepted
      lasting := attends.lasting
      opened := closed.trans attends.opened
      going := cancelled.trans attends.going }

/-! ### Steps -/

/-- Whether a transport has a receiving task that goes on. -/
def Follows (endpoint : Endpoint) (inflow : Inflow) (armed : Bool)
    (read : List UInt8) : Prop :=
  ∃ link socket, endpoint.Attends link socket ∧
    Reads inflow armed read link socket

theorem Follows.onLink (attends : endpoint.Attends link socket)
    (reads : Reads inflow armed read link socket)
    (turn : Link → Socket → LinkStep)
    (spares : link.Spares (turn link socket).link)
    (alike : socket.Alike (turn link socket).socket) :
    (endpoint.onLink turn).1.Follows inflow armed read :=
  ⟨_, _, (attends.onLink turn spares.closed spares.cancelled).1,
    reads.spared spares alike⟩

theorem accepting_idle (accepted : endpoint.accepting = .ended) :
    endpoint.accept = (endpoint, []) ∧
      (∀ error, endpoint.acceptFails error = (endpoint, [])) ∧
      endpoint.giveUpAccepting = (endpoint, []) ∧
      endpoint.upgrade = (endpoint, []) := by
  refine ⟨?_, ?_, ?_, ?_⟩
  · simp only [accept, accepted]
  · intro error
    simp only [acceptFails, accepted]
  · exact if_neg fun called => called.1 accepted
  · simp only [Endpoint.upgrade, accepted]

theorem connect_of_accepted (accepted : endpoint.accepting = .ended)
    (addressKnown : Bool) : endpoint.connect addressKnown = endpoint := by
  apply if_neg
  simp [isListening, accepted]

theorem turn_of_lasting (lasting : endpoint.halted = false) {now : Instant}
    {step : EndpointStep} {turned : Endpoint × List Event}
    (isTask : endpoint.turn now step =
      if endpoint.halted then (endpoint, []) else turned) :
    endpoint.turn now step = turned :=
  isTask.trans (if_neg (by simp [lasting]))

theorem Follows.turn (follows : endpoint.Follows inflow armed read)
    (now : Instant) (step : EndpointStep)
    (peaceful : Incident.Peaceful (.turn now step))
    (other : Incident.isReceive (.turn now step) = false) :
    (endpoint.turn now step).1.Follows (inflow.after (.turn now step)) armed
      read := by
  obtain ⟨link, socket, attends, reads⟩ := follows
  have stays : endpoint.Follows inflow armed read :=
    ⟨link, socket, attends, reads⟩
  obtain ⟨accept, acceptFails, giveUp, upgrade⟩ :=
    accepting_idle attends.accepted
  have lasting := attends.lasting
  cases step with
  | connect addressKnown =>
      have turned : endpoint.turn now (.connect addressKnown) =
          (endpoint, []) := by
        rw [Endpoint.turn, connect_of_accepted attends.accepted]
      rw [turned]
      exact stays
  | arrive bytes => exact ⟨link, _, attends.onSocket _, reads.arrive bytes⟩
  | finish => exact ⟨link, _, attends.onSocket _, reads.finish⟩
  | hangUp =>
      refine ⟨link, _, attends.onSocket _, ?_⟩
      exact reads.finish.spared link.spares_refl ⟨rfl, rfl⟩
  | reset => exact absurd peaceful id
  | accept =>
      have turned : endpoint.turn now .accept = (endpoint, []) :=
        (turn_of_lasting lasting rfl).trans accept
      rw [turned]
      exact stays
  | acceptFails error =>
      have turned : endpoint.turn now (.acceptFails error) = (endpoint, []) :=
        (turn_of_lasting lasting rfl).trans (acceptFails error)
      rw [turned]
      exact stays
  | giveUpAccepting =>
      have turned : endpoint.turn now .giveUpAccepting = (endpoint, []) :=
        (turn_of_lasting lasting rfl).trans giveUp
      rw [turned]
      exact stays
  | upgrade =>
      have turned : endpoint.turn now .upgrade = (endpoint, []) :=
        (turn_of_lasting lasting rfl).trans upgrade
      rw [turned]
      exact stays
  | receive most => cases other
  | stopReceiving =>
      have turned : endpoint.turn now .stopReceiving =
          endpoint.onLink fun link socket =>
            { link := link.stopReceiving
              socket := socket } :=
        turn_of_lasting lasting rfl
      have still := Link.stopReceiving_of_going attends.going
      rw [turned]
      apply Follows.onLink attends reads
      · rw [still]
        exact link.spares_refl
      · exact socket.alike_refl
  | send room =>
      have turned : endpoint.turn now (.send room) =
          endpoint.onLink fun link socket => link.send socket room :=
        turn_of_lasting lasting rfl
      have spares := link.send_spares reads.orderly room
      rw [turned]
      exact .onLink attends reads _ spares.1 spares.2
  | stopSending =>
      have turned : endpoint.turn now .stopSending =
          endpoint.onLink fun link socket => link.stopSending socket :=
        turn_of_lasting lasting rfl
      have still := Link.stopSending_of_going attends.going socket
      rw [turned]
      apply Follows.onLink attends reads
      · rw [still]
        exact link.spares_refl
      · rw [still]
        exact socket.alike_refl

end Endpoint

end LatencyBench

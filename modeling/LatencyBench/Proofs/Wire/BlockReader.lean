/-
The receive loop of a connection over raw TCP, one incident at a time.

While it goes on, it has reported the whole blocks of what it has read, and
what it has read is a first part of what has come in.  It ends in a turn of
its own only at the end of the stream, having reported everything; otherwise
it ends because the connection has been called off.
-/

import LatencyBench.Proofs.Wire.Blocks

namespace LatencyBench

open Net

/-! ### While the receive loop goes on -/

namespace Served

/-- Whether the receive loop of a connection has read a part of an inflow. -/
structure ReadsBlocks (inflow : Inflow) (read : List UInt8)
    (served : Served) : Prop where
  intake : served.link.intake = .block (leftOver read)
  waiting : inflow.bytes = read ++ served.socket.inbound
  ending : served.socket.ending.map StreamEnd.fault =
    if inflow.finished then some .closed else none

variable {served : Served} {inflow : Inflow} {read : List UInt8}

theorem ReadsBlocks.closes (reads : served.ReadsBlocks inflow read) :
    served.socket.Closes := by
  intro ending last
  have fault := reads.ending
  rw [last] at fault
  split at fault
  · exact Option.some.inj fault
  · cases fault

theorem ReadsBlocks.finished_iff (reads : served.ReadsBlocks inflow read) :
    inflow.finished = served.socket.ending.isSome := by
  have fault := reads.ending
  cases ending : served.socket.ending with
  | none =>
      rw [ending] at fault
      split at fault
      · cases fault
      · exact eq_false_of_ne_true ‹_›
  | some last =>
      rw [ending] at fault
      split at fault
      · assumption
      · cases fault

theorem ReadsBlocks.same {later : Served}
    (reads : served.ReadsBlocks inflow read)
    (intake : later.link.intake = served.link.intake)
    (readsAs : served.socket.ReadsAs later.socket) :
    later.ReadsBlocks inflow read where
  intake := intake.trans reads.intake
  waiting := by rw [reads.waiting, readsAs.inbound]
  ending := readsAs.ending.trans reads.ending

theorem ReadsBlocks.arrive (reads : served.ReadsBlocks inflow read)
    (bytes : List UInt8) :
    (served.onSocket fun socket => socket.arrive bytes).ReadsBlocks
      (inflow.arrive bytes) read := by
  have finished := reads.finished_iff
  have waiting := reads.waiting
  have fault := reads.ending
  unfold Served.onSocket Socket.arrive
  dsimp only
  cases ending : served.socket.ending with
  | some last =>
      rw [ending] at finished
      rw [Inflow.arrive_finished finished]
      exact reads
  | none =>
      rw [ending] at finished
      have still : inflow.arrive bytes =
          { inflow with bytes := inflow.bytes ++ bytes } := by
        rw [Inflow.arrive, finished]
        rfl
      rw [still]
      refine ⟨reads.intake, ?_, ?_⟩
      · simp only [waiting, List.append_assoc]
      · simp only [finished]
        rfl

theorem ReadsBlocks.finish (reads : served.ReadsBlocks inflow read)
    {change : Socket → Socket}
    (inbound : (change served.socket).inbound = served.socket.inbound)
    (ending : (change served.socket).ending.map StreamEnd.fault =
      some .closed) :
    (served.onSocket change).ReadsBlocks inflow.finish read where
  intake := reads.intake
  waiting := by
    rw [Served.onSocket, inbound]
    exact reads.waiting
  ending := ending

theorem finish_closes {socket : Socket} (closes : socket.Closes) :
    socket.finish.ending.map StreamEnd.fault = some .closed := by
  unfold Socket.finish
  cases ending : socket.ending with
  | none => rfl
  | some last => exact congrArg some (closes last ending)

end Served

/-- Whether an incident calls a connection off: it is closed, its session is
called off, or the runtime is gone. -/
def Incident.callsOff (connection : Connection) : Incident → Bool
  | .cancelSession => true
  | .halt => true
  | incident => incident.releases connection

theorem Incident.not_receive_of_callsOff {connection : Connection}
    {incident : Incident} (callsOff : incident.callsOff connection = true) :
    incident.isReceive = false := by
  cases incident with
  | turn now step => cases callsOff
  | _ => rfl

namespace Served

variable {served later : Served} {inflow : Inflow} {read : List UInt8}
  {armed calledOff : Bool} {connection : Connection} {incident : Incident}

/-- Whether a connection has a receive loop that has read a part of an inflow,
armed or not, called off or not. -/
structure Attends (inflow : Inflow) (armed calledOff : Bool)
    (read : List UInt8) (served : Served) : Prop where
  reads : served.ReadsBlocks inflow read
  opened : served.link.closed = false
  receiving : served.link.receiving = if armed then .running else .parked
  free : calledOff = false →
    served.link.cancelled = false ∧ served.halted = false

theorem Attends.spared (attends : served.Attends inflow armed calledOff read)
    (spares : served.link.Spares later.link)
    (readsAs : served.socket.ReadsAs later.socket)
    (halted : later.halted = served.halted) :
    later.Attends inflow armed calledOff read where
  reads := attends.reads.same spares.intake readsAs
  opened := spares.closed.trans attends.opened
  receiving := spares.receiving.trans attends.receiving
  free free := by
    rw [spares.cancelled, halted]
    exact attends.free free

/-- What becomes of a receive loop without a turn of its own: it goes on, or
it has been called off. -/
def StaysOrStops (inflow : Inflow) (armed calledOff : Bool)
    (read : List UInt8) (later : Served) : Prop :=
  later.Attends inflow armed calledOff read ∨
    later.link.receiving = .ended ∧ calledOff = true

theorem Attends.stays (attends : served.Attends inflow armed calledOff read)
    (arms : incident.arms connection = false)
    (callsOff : incident.callsOff connection = false) :
    served.StaysOrStops inflow (armed || incident.arms connection)
      (calledOff || incident.callsOff connection) read := by
  rw [arms, callsOff, Bool.or_false, Bool.or_false]
  exact .inl attends

theorem Attends.onLink (attends : served.Attends inflow armed calledOff read)
    {turn : Link → Socket → LinkStep}
    (spares : served.link.Spares (turn served.link served.socket).link)
    (writes : ∃ bytes, (turn served.link served.socket).socket =
      (served.socket.write bytes).2) :
    (served.onLink turn).1.Attends inflow armed calledOff read := by
  obtain ⟨bytes, wrote⟩ := writes
  unfold Served.onLink
  split
  · exact attends
  · refine attends.spared spares ?_ rfl
    dsimp only
    rw [wrote]
    exact Socket.write_readsAs attends.reads.closes bytes

theorem Attends.stopReceiving
    (attends : served.Attends inflow armed calledOff read) :
    (served.onLink fun link socket =>
      { link := link.stopReceiving
        socket := socket }).1.StaysOrStops inflow armed calledOff read := by
  unfold Served.onLink
  split
  · exact .inl attends
  · unfold Link.stopReceiving
    dsimp only
    split
    case isFalse => exact .inl attends
    case isTrue called =>
        refine .inr ⟨rfl, ?_⟩
        by_contra free
        have going := (attends.free (eq_false_of_ne_true free)).1
        rw [going] at called
        cases called.1

theorem Attends.turn (attends : served.Attends inflow armed calledOff read)
    (now : Instant) (step : EndpointStep)
    (unread : Incident.isReceive (.turn now step) = false) :
    (served.turn now step).1.StaysOrStops (inflow.onward (.turn now step))
      (armed || Incident.arms connection (.turn now step))
      (calledOff || Incident.callsOff connection (.turn now step)) read := by
  have closes := attends.reads.closes
  rw [show Incident.arms connection (.turn now step) = false from rfl,
    show Incident.callsOff connection (.turn now step) = false from rfl,
    Bool.or_false, Bool.or_false]
  cases step with
  | arrive bytes =>
      exact .inl { attends with reads := attends.reads.arrive bytes }
  | finish =>
      exact .inl
        { attends with
          reads := attends.reads.finish rfl (finish_closes closes) }
  | hangUp =>
      exact .inl
        { attends with
          reads := attends.reads.finish rfl (finish_closes closes) }
  | reset => exact .inl { attends with reads := attends.reads.finish rfl rfl }
  | receive most => cases unread
  | stopReceiving => exact attends.stopReceiving
  | send room =>
      exact .inl (attends.onLink (served.link.send_spared served.socket room)
        (served.link.send_writes served.socket room))
  | stopSending =>
      exact .inl (attends.onLink
        (served.link.stopSending_spared served.socket)
        (served.link.stopSending_writes served.socket))
  | _ => exact .inl attends

theorem Attends.arm (attends : served.Attends inflow armed calledOff read) :
    { served with link := served.link.arm }.Attends inflow true calledOff
      read := by
  have receiving := attends.receiving
  unfold Link.arm
  rw [if_neg (by simp [attends.opened])]
  cases armed with
  | true =>
      rw [if_pos rfl] at receiving
      rw [receiving]
      exact attends
  | false =>
      rw [if_neg Bool.false_ne_true] at receiving
      rw [receiving]
      exact
        { attends with
          reads :=
            { attends.reads with intake := attends.reads.intake }
          receiving := rfl }

theorem stops_of_ended (ended : later.link.receiving = .ended)
    (callsOff : incident.callsOff connection = true) :
    later.StaysOrStops inflow armed
      (calledOff || incident.callsOff connection) read := by
  rw [callsOff, Bool.or_true]
  exact .inr ⟨ended, rfl⟩

theorem Attends.perform
    (attends : served.Attends inflow armed calledOff read)
    (connection : Connection) (call : Call) :
    (served.perform call).1.StaysOrStops inflow
      (armed || Incident.arms connection (.call (connection.does call)))
      (calledOff || Incident.callsOff connection
        (.call (connection.does call))) read := by
  have ended := (Link.close_shut attends.opened).receiving
  cases call with
  | arm =>
      have arms : Incident.arms connection
          (.call (connection.does .arm)) = true := decide_eq_true rfl
      have stays : Incident.callsOff connection
          (.call (connection.does .arm)) = false :=
        Incident.not_releases_of_arms arms
      rw [arms, stays, Bool.or_true, Bool.or_false]
      exact .inl attends.arm
  | send payload =>
      apply Attends.stays
      · exact attends.spared (served.link.post_spares payload)
          served.socket.readsAs_refl rfl
      · simp [Incident.arms, Connection.does]
      · simp [Incident.callsOff, Incident.releases, Connection.does]
  | close => exact stops_of_ended ended (decide_eq_true (.inl rfl))
  | drop => exact stops_of_ended ended (decide_eq_true (.inr rfl))

theorem Attends.cancel
    (attends : served.Attends inflow armed calledOff read) :
    { served with link := { served.link with cancelled := true } }.Attends
      inflow armed true read where
  reads :=
    { attends.reads with intake := attends.reads.intake }
  opened := attends.opened
  receiving := attends.receiving
  free := by simp

theorem Attends.halt (attends : served.Attends inflow armed calledOff read) :
    { served with
      link := served.link.halt
      halted := true }.StaysOrStops inflow armed true read := by
  have receiving := attends.receiving
  cases armed with
  | true =>
      rw [if_pos rfl] at receiving
      refine .inr ⟨?_, rfl⟩
      simp [Link.halt, receiving]
  | false =>
      rw [if_neg Bool.false_ne_true] at receiving
      left
      exact
        { reads :=
            { attends.reads with intake := attends.reads.intake }
          opened := attends.opened
          receiving := by simp [Link.halt, receiving]
          free := by simp }

theorem Attends.meet (attends : served.Attends inflow armed calledOff read)
    (connection : Connection) (incident : Incident) (fair : incident.Fair)
    (unread : incident.isReceive = false) :
    (served.meet connection incident).1.StaysOrStops (inflow.onward incident)
      (armed || incident.arms connection)
      (calledOff || incident.callsOff connection) read := by
  cases incident with
  | turn now step => exact attends.turn now step unread
  | farEnd change =>
      obtain ⟨count, same⟩ := fair served.socket
      apply Attends.stays _ rfl rfl
      refine attends.spared served.link.spares_refl ?_ rfl
      change served.socket.ReadsAs (change served.socket)
      rw [same]
      exact ⟨rfl, rfl⟩
  | call made =>
      rcases made with ⟨other, call⟩
      by_cases own : other = connection
      · subst own
        rw [Served.meet, if_pos rfl]
        exact attends.perform other call
      · rw [Served.meet, if_neg own]
        apply attends.stays
        · simp [Incident.arms, Connection.does, own]
        · simp [Incident.callsOff, Incident.releases, Connection.does, own]
  | cancelAccept => exact attends.stays rfl rfl
  | cancelSession =>
      rw [show Incident.arms connection .cancelSession = false from rfl,
        show Incident.callsOff connection .cancelSession = true from rfl,
        Bool.or_false, Bool.or_true]
      exact .inl attends.cancel
  | halt =>
      rw [show Incident.arms connection .halt = false from rfl,
        show Incident.callsOff connection .halt = true from rfl,
        Bool.or_false, Bool.or_true]
      exact attends.halt

/-- What becomes of a receive loop in a turn of its own: it reads on, and
with room for everything it reads everything; or it meets the end of the
stream. -/
inductive ReadsOrEnds (inflow : Inflow) (armed calledOff : Bool)
    (read : List UInt8) (drains : Prop) (later : Served)
    (events : List Event) : Prop where
  | reads (more : List UInt8)
      (attends : later.Attends inflow armed calledOff (read ++ more))
      (told : blockEvents (read ++ more) =
        blockEvents read ++ events.map Event.undated)
      (drained : drains →
        inflow.bytes = read ++ more ∧ inflow.finished = false)
  | ends (ended : later.link.receiving = .ended)
      (finished : inflow.finished = true)
      (told : inflow.announced =
        blockEvents read ++ events.map Event.undated)

theorem ReadsOrEnds.within {drains given : Prop} {events : List Event}
    (turned : ReadsOrEnds inflow armed calledOff read drains later events)
    (within : given → drains) :
    ReadsOrEnds inflow armed calledOff read given later events := by
  cases turned with
  | reads more attends told drained =>
      exact .reads more attends told fun room => drained (within room)
  | ends ended finished told => exact .ends ended finished told

theorem undated_blocks {read more : List UInt8} {new : List (List UInt8)}
    (blocks : wholeBlocks (read ++ more) = wholeBlocks read ++ new)
    (now : Instant) :
    blockEvents (read ++ more) =
      blockEvents read ++
        (new.map fun block => Event.received block now).map
          Event.undated := by
  rw [blockEvents, blocks, List.map_append, List.map_map]
  rfl

theorem Attends.receive_running
    (attends : served.Attends inflow true calledOff read) (most : Nat)
    (now : Instant) :
    ReadsOrEnds inflow true calledOff read
      (served.socket.inbound.length ≤ most)
      { served with
        link := (served.link.receive served.socket most now).link
        socket := (served.link.receive served.socket most now).socket }
      (served.link.receive served.socket most now).events := by
  have reads := attends.reads
  have running : served.link.receiving = .running := attends.receiving
  obtain ⟨new, blocks, turned⟩ :=
    Link.receive_blocks running reads.intake most now
  have finished := reads.finished_iff
  have waiting : inflow.bytes =
      read ++ served.socket.inbound.take most ++
        served.socket.inbound.drop most := by
    rw [List.append_assoc, List.take_append_drop]
    exact reads.waiting
  rw [turned]
  cases reached : (served.socket.take most).2.endReached with
  | none =>
      rw [Link.meetEnd_of_open reached]
      refine .reads (served.socket.inbound.take most) ?_
        (undated_blocks blocks now) ?_
      · exact
          { reads :=
              { intake := rfl
                waiting := waiting
                ending := reads.ending }
            opened := attends.opened
            receiving := running
            free := attends.free }
      · intro room
        have nothing : served.socket.inbound.drop most = [] :=
          List.drop_of_length_le room
        rw [nothing, List.append_nil] at waiting
        refine ⟨waiting, ?_⟩
        have last : served.socket.ending = none := by
          simpa [Socket.endReached, Socket.take, nothing] using reached
        rw [finished, last]
        rfl
  | some ending =>
      have nothing : served.socket.inbound.drop most = [] := by
        by_contra more
        simp [Socket.endReached, Socket.take, more] at reached
      have last : served.socket.ending = some ending := by
        simpa [Socket.endReached, Socket.take, nothing] using reached
      rw [nothing, List.append_nil] at waiting
      have isFinished : inflow.finished = true := by
        rw [finished, last]
        rfl
      obtain ⟨ended, events⟩ :=
        @Link.meetEnd_of_reached
          { link := served.link.readOn served.socket read most
            socket := (served.socket.take most).2
            events := new.map fun block => .received block now }
          ending running reached (reads.closes ending last)
      refine .ends ended isFinished ?_
      rw [events, Inflow.announced_finished isFinished, waiting,
        undated_blocks blocks now, List.map_append, List.append_assoc]
      rfl

/-- The step lemma for a turn of the receive loop. -/
theorem Attends.receive (attends : served.Attends inflow armed calledOff read)
    (most : Nat) (now : Instant) :
    ReadsOrEnds inflow armed calledOff read
      (armed = true ∧ calledOff = false ∧
        served.socket.inbound.length ≤ most)
      (served.turn now (.receive most)).1
      (served.turn now (.receive most)).2 := by
  have idle (off : armed = true → calledOff = true) :
      ReadsOrEnds inflow armed calledOff read
        (armed = true ∧ calledOff = false ∧
          served.socket.inbound.length ≤ most) served [] := by
    refine .reads [] ?_ ?_ ?_
    · rw [List.append_nil]
      exact attends
    · rw [List.append_nil]
      exact (List.append_nil _).symm
    · rintro ⟨isArmed, free, _⟩
      rw [off isArmed] at free
      cases free
  change ReadsOrEnds _ _ _ _ _ (served.onLink _).1 (served.onLink _).2
  unfold Served.onLink
  by_cases halted : served.halted = true
  · rw [if_pos halted]
    apply idle
    intro _
    by_contra free
    have lasting := (attends.free (eq_false_of_ne_true free)).2
    rw [halted] at lasting
    cases lasting
  · rw [if_neg halted]
    cases armed with
    | true =>
        exact (attends.receive_running most now).within fun given =>
          given.2.2
    | false =>
        have parked : served.link.receiving = .parked := attends.receiving
        have nothing : served.link.receive served.socket most now =
            { link := served.link
              socket := served.socket } := by
          simp only [Link.receive, parked]
        dsimp only
        rw [nothing]
        exact idle (by simp)

end Served

end LatencyBench

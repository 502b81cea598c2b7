/-
From the upgrade to the end of the conversation.

The run lemma puts the turns of the receiving task together: whatever else
happens as long as nobody calls the session off, the task is always where the
bytes it has read have brought it.  What a client says after its upgrade has
been answered is therefore reported as it was said, however the bytes were cut
up on the way and whenever the task got to read them.
-/

import LatencyBench.Proofs.Wire.Hearing

namespace LatencyBench

open Net WebSocket

namespace Inflow

variable {inflow : Inflow} {read rest : List UInt8}

theorem told_of_said (waiting : inflow.bytes = read ++ rest)
    (said : ends ((Intake.start .webSocket).feed read).2 = true) :
    inflow.isOver = true ∧
      inflow.told = reported 0 ((Intake.start .webSocket).feed read).2 := by
  have ended : ends inflow.received = true := by
    rw [received, waiting, Intake.feed_append, ends_append, said]
    rfl
  refine ⟨?_, ?_⟩
  · rw [isOver, ended, Bool.or_true]
  · rw [told, ended, Bool.not_true, Bool.and_false, received, waiting,
      Intake.feed_append, reported_append, said]
    exact List.append_nil _

theorem told_of_read (waiting : inflow.bytes = read)
    (goesOn : ends ((Intake.start .webSocket).feed read).2 = false) :
    inflow.isOver = inflow.finished ∧
      inflow.told =
        reported 0 ((Intake.start .webSocket).feed read).2 ++
          if inflow.finished then [.failed .closed] else [] := by
  rw [isOver, told, received, waiting, goesOn, Bool.or_false, Bool.not_false,
    Bool.and_true]
  exact ⟨rfl, rfl⟩

end Inflow

namespace Endpoint

/-- Where the receiving task of a transport stands: it goes on, and has
reported what it has read, or it has ended, and has reported everything. -/
inductive Hearing (endpoint : Endpoint) (inflow : Inflow) (armed : Bool)
    (past : List Event) : Prop where
  | goes (read : List UInt8) (follows : endpoint.Follows inflow armed read)
      (told : past = reported 0 ((Intake.start .webSocket).feed read).2) :
      Hearing endpoint inflow armed past
  | ended (deaf : endpoint.Deaf) (isOver : inflow.isOver = true)
      (told : past = inflow.told) : Hearing endpoint inflow armed past

variable {endpoint before after : Endpoint} {link : Link} {socket : Socket}
  {inflow : Inflow} {armed : Bool} {read : List UInt8} {past : List Event}

/-! ### Calls and turns -/

theorem Attends.connection (attends : endpoint.Attends link socket) :
    endpoint.connection = (start .webSocket).connection := by
  simp only [Endpoint.connection, attends.transport, start]

theorem Attends.called (attends : endpoint.Attends link socket)
    {later : Link} (opened : later.closed = false)
    (going : later.cancelled = false) :
    { endpoint with link := some later }.Attends later socket where
  transport := attends.transport
  linked := rfl
  connected := attends.connected
  accepted := attends.accepted
  lasting := attends.lasting
  opened := opened
  going := going

theorem Follows.perform (follows : endpoint.Follows inflow armed read)
    (made : ConnectionCall) (peaceful : Incident.Peaceful (.call made)) :
    (endpoint.perform made).1.Follows inflow
      (armed || Incident.arms (start .webSocket).connection (.call made))
      read := by
  obtain ⟨link, socket, attends, reads⟩ := follows
  rcases made with ⟨connection, call⟩
  unfold Endpoint.perform
  rw [attends.linked]
  dsimp only
  rw [attends.connection]
  by_cases own : connection = (start .webSocket).connection
  · rw [if_pos own]
    cases call with
    | arm =>
        have arms : Incident.arms (start .webSocket).connection
            (.call ⟨connection, .arm⟩) = true := by
          rw [own]
          rfl
        obtain ⟨armed, closed, cancelled⟩ := reads.arm attends.opened
        rw [arms, Bool.or_true]
        exact ⟨_, _, attends.called closed (cancelled.trans attends.going),
          armed⟩
    | send payload =>
        have arms : Incident.arms (start .webSocket).connection
            (.call ⟨connection, .send payload⟩) = false := by
          simp [Incident.arms, Connection.does]
        have spares := link.post_spares payload
        rw [arms, Bool.or_false]
        exact ⟨_, _, attends.called (spares.closed.trans attends.opened)
          (spares.cancelled.trans attends.going),
          reads.spared spares socket.alike_refl⟩
    | close => exact absurd peaceful id
    | drop => exact absurd peaceful id
  · have arms : Incident.arms (start .webSocket).connection
        (.call ⟨connection, call⟩) = false := by
      simp [Incident.arms, Connection.does, own]
    rw [if_neg own, arms, Bool.or_false]
    exact ⟨link, socket, attends, reads⟩

theorem Follows.parked (attends : endpoint.Attends link socket)
    (reads : Reads inflow false read link socket) (now : Instant)
    (most : Nat) :
    (endpoint.turn now (.receive most)).1.Follows inflow false read ∧
      (endpoint.turn now (.receive most)).2 = [] := by
  have parked : link.receiving = .parked := reads.receiving
  have idle : link.receive socket most now =
      { link := link
        socket := socket } := by
    unfold Link.receive
    rw [parked]
  have turned : endpoint.turn now (.receive most) =
      endpoint.onLink fun link socket => link.receive socket most now :=
    turn_of_lasting attends.lasting rfl
  rw [turned]
  refine ⟨?_, ?_⟩
  · apply Follows.onLink attends reads
    · rw [idle]
      exact link.spares_refl
    · rw [idle]
      exact socket.alike_refl
  · rw [(attends.onLink _ (by rw [idle]) (by rw [idle])).2, idle]

/-- What a turn of the receiving task of an armed connection leads to: it goes
on behind the bytes it has taken, and has met no end, or it is over. -/
inductive ReadsOn (endpoint : Endpoint) (socket : Socket) (inflow : Inflow)
    (read : List UInt8) (most : Nat) (past : List Event) : Prop where
  | goes (follows : endpoint.Follows inflow true
        (read ++ socket.inbound.take most))
      (told : past = reported 0
        ((Intake.start .webSocket).feed
          (read ++ socket.inbound.take most)).2)
      (more : Link.exhausts socket most = false) :
      ReadsOn endpoint socket inflow read most past
  | ended (deaf : endpoint.Deaf) (isOver : inflow.isOver = true)
      (told : past = inflow.told) :
      ReadsOn endpoint socket inflow read most past

theorem Reads.exhausts (reads : Reads inflow armed read link socket)
    (most : Nat) :
    Link.exhausts socket most =
      ((socket.inbound.drop most).isEmpty && inflow.finished) := by
  rw [Link.exhausts, reads.ending]
  cases inflow.finished <;> rfl

theorem Follows.receive (attends : endpoint.Attends link socket)
    (reads : Reads inflow true read link socket) (now : Instant) {most : Nat}
    (written : link.answersIn socket most = true)
    (told : past = reported 0 ((Intake.start .webSocket).feed read).2) :
    (endpoint.turn now (.receive most)).1.ReadsOn socket inflow read most
      (past ++
        (endpoint.turn now (.receive most)).2.map Event.undated) := by
  have running : link.receiving = .running := reads.receiving
  cases fed : link.intake.feed (socket.inbound.take most) with
  | mk intake received =>
  have turned := Link.receive_turned now running reads.orderly written fed
  have made : endpoint.turn now (.receive most) =
      endpoint.onLink fun link socket => link.receive socket most now :=
    turn_of_lasting attends.lasting rfl
  obtain ⟨attends, events⟩ := attends.onLink
    (fun link socket => link.receive socket most now) turned.closed
    turned.cancelled
  rw [made, events]
  generalize (endpoint.onLink _).1 = after at attends ⊢
  generalize link.receive socket most now = step at turned attends ⊢
  -- What the loop has made of everything it has read by now.
  have whole : (Intake.start .webSocket).feed
        (read ++ socket.inbound.take most) =
      (intake, ((Intake.start .webSocket).feed read).2 ++ received) := by
    rw [Intake.feed_append, ← reads.intake, fed]
  have waiting : inflow.bytes =
      (read ++ socket.inbound.take most) ++ socket.inbound.drop most := by
    rw [reads.waiting, List.append_assoc, List.take_append_drop]
  have sum : past ++ step.events.map Event.undated =
      reported 0 ((Intake.start .webSocket).feed
          (read ++ socket.inbound.take most)).2 ++
        if Link.exhausts socket most && !ends received then
          [.failed .closed]
        else [] := by
    rw [whole, reported_append, reads.goesOn, told, turned.events,
      List.map_append, undated_reported, if_neg Bool.false_ne_true,
      List.append_assoc]
    split <;> rfl
  have saidNow : ends ((Intake.start .webSocket).feed
      (read ++ socket.inbound.take most)).2 = ends received := by
    rw [whole, ends_append, reads.goesOn, Bool.false_or]
  have receiving := turned.receiving
  have deaf (ended : step.link.receiving = .ended) : after.Deaf := by
    refine ⟨attends.accepted, ?_⟩
    intro held linked
    rw [attends.linked] at linked
    cases linked
    exact ended
  cases said : ends received with
  | true =>
      rw [said] at saidNow sum receiving
      obtain ⟨isOver, all⟩ := Inflow.told_of_said waiting saidNow
      refine .ended (deaf ?_) isOver ?_
      · rw [receiving, Bool.or_true, if_pos rfl]
      · rw [sum, all, Bool.not_true, Bool.and_false]
        exact List.append_nil _
  | false =>
      rw [said] at saidNow sum receiving
      rw [Bool.or_false] at receiving
      rw [Bool.not_false, Bool.and_true] at sum
      cases last : Link.exhausts socket most with
      | true =>
          rw [last, if_pos rfl] at receiving sum
          rw [reads.exhausts, Bool.and_eq_true, List.isEmpty_iff] at last
          rw [last.1, List.append_nil] at waiting
          obtain ⟨isOver, all⟩ := Inflow.told_of_read waiting saidNow
          rw [last.2] at isOver all
          exact .ended (deaf receiving) isOver (sum.trans all.symm)
      | false =>
          rw [last, if_neg Bool.false_ne_true] at receiving sum
          rw [List.append_nil] at sum
          refine .goes ⟨step.link, step.socket, attends, ?_⟩ sum last
          refine ⟨receiving, ?_, saidNow, ?_, ?_⟩
          · rw [turned.intake, whole]
          · rw [waiting, turned.inbound]
          · rw [turned.ending, reads.ending]

/-! ### The run -/

theorem ReadsOn.hearing {most : Nat}
    (readsOn : after.ReadsOn socket inflow read most past) :
    after.Hearing inflow true past := by
  cases readsOn with
  | goes follows told _ => exact .goes _ follows told
  | ended deaf isOver told => exact .ended deaf isOver told

theorem Attends.written (attends : endpoint.Attends link socket)
    (running : link.receiving = .running) {now : Instant} {most : Nat}
    (written : endpoint.answersIn (.turn now (.receive most)) = true) :
    link.answersIn socket most = true := by
  simp only [answersIn, attends.linked, attends.connected, running,
    bne_self_eq_false, Bool.false_or] at written
  exact written

theorem Attends.cancelAccept (attends : endpoint.Attends link socket) :
    endpoint.cancelAccept.Attends link socket :=
  { attends with }

/-- The step lemma. -/
theorem Hearing.meet (hearing : endpoint.Hearing inflow armed past)
    (incident : Incident) (peaceful : incident.Peaceful)
    (written : endpoint.answersIn incident = true) :
    (endpoint.meet incident).1.Hearing (inflow.after incident)
      (armed || incident.arms (start .webSocket).connection)
      (past ++ (endpoint.hears incident).map Event.undated) := by
  cases hearing with
  | ended deaf isOver told =>
      obtain ⟨stillOver, same⟩ := Inflow.after_over isOver incident
      refine .ended (deaf.meet incident) stillOver ?_
      rw [deaf.hears incident, same, told]
      exact List.append_nil _
  | goes read follows told =>
      have unarmed
          (other : incident.arms (start .webSocket).connection = false) :
          (armed || incident.arms (start .webSocket).connection) = armed := by
        rw [other, Bool.or_false]
      have quiet (other : incident.isReceive = false) :
          past ++ (endpoint.hears incident).map Event.undated =
            reported 0 ((Intake.start .webSocket).feed read).2 := by
        rw [Endpoint.hears, if_neg (by simp [other]), told]
        exact List.append_nil _
      cases incident with
      | turn now step =>
          rw [unarmed rfl]
          cases receives : Incident.isReceive (.turn now step) with
          | false =>
              exact .goes read (follows.turn now step peaceful receives)
                (quiet receives)
          | true =>
              obtain ⟨link, socket, attends, reads⟩ := follows
              match step, receives with
              | .receive most, _ =>
                  cases armed with
                  | false =>
                      obtain ⟨parked, nothing⟩ :=
                        Follows.parked attends reads now most
                      refine .goes read parked ?_
                      change past ++
                        (endpoint.turn now (.receive most)).2.map _ = _
                      rw [nothing, told]
                      exact List.append_nil _
                  | true =>
                      exact (Follows.receive attends reads now
                        (attends.written reads.receiving written)
                        told).hearing
      | farEnd change =>
          obtain ⟨link, socket, attends, reads⟩ := follows
          rw [unarmed rfl]
          exact .goes read ⟨link, _, attends.onSocket change,
            reads.spared link.spares_refl (peaceful socket)⟩ (quiet rfl)
      | call made => exact .goes read (follows.perform made peaceful) (quiet rfl)
      | cancelAccept =>
          obtain ⟨link, socket, attends, reads⟩ := follows
          rw [unarmed rfl]
          exact .goes read ⟨link, socket, attends.cancelAccept, reads⟩
            (quiet rfl)
      | cancelSession => exact absurd peaceful id
      | halt => exact absurd peaceful id

/-- The run lemma. -/
theorem Hearing.course (hearing : endpoint.Hearing inflow armed past)
    (incidents : List Incident)
    (peaceful : ∀ incident ∈ incidents, incident.Peaceful)
    (written : endpoint.answersThrough incidents = true) :
    (endpoint.course incidents).1.Hearing (inflow.through incidents)
      (armed ||
        incidents.any (Incident.arms (start .webSocket).connection))
      (past ++ (endpoint.heard incidents).map Event.undated) := by
  induction incidents generalizing endpoint inflow armed past with
  | nil =>
      rw [List.any_nil, Bool.or_false, Endpoint.heard, List.map_nil,
        List.append_nil]
      exact hearing
  | cons incident rest inductionHypothesis =>
      rw [List.forall_mem_cons] at peaceful
      rw [answersThrough, Bool.and_eq_true] at written
      have onward := inductionHypothesis
        (hearing.meet incident peaceful.1 written.1) peaceful.2 written.2
      rw [List.any_cons, ← Bool.or_assoc, Endpoint.heard, List.map_append,
        ← List.append_assoc]
      exact onward

/-- Once the receiving task of an armed connection has read everything that
has come in, it has reported all there is to report. -/
theorem Hearing.drain (hearing : endpoint.Hearing inflow true past)
    (now : Instant) {most : Nat} (room : endpoint.backlog ≤ most)
    (written : endpoint.answersIn (.turn now (.receive most)) = true) :
    past ++ (endpoint.turn now (.receive most)).2.map Event.undated =
        inflow.told ∧
      (inflow.isOver = true →
        (endpoint.turn now (.receive most)).1.Deaf) := by
  cases hearing with
  | ended deaf isOver told =>
      have nothing : (endpoint.turn now (.receive most)).2 = [] :=
        deaf.hears (.turn now (.receive most))
      refine ⟨?_, fun _ => deaf.meet (.turn now (.receive most))⟩
      rw [nothing, told]
      exact List.append_nil _
  | goes read follows told =>
      obtain ⟨link, socket, attends, reads⟩ := follows
      have readsOn := Follows.receive attends reads now
        (attends.written reads.receiving written) told
      cases readsOn with
      | ended deaf isOver all => exact ⟨all, fun _ => deaf⟩
      | goes follows all more =>
          -- Nothing is left at the socket, so the stream is still open.
          rw [backlog, attends.connected] at room
          have taken := List.take_of_length_le room
          rw [reads.exhausts, List.drop_eq_nil_of_le room] at more
          have still : inflow.finished = false := more
          obtain ⟨_, _, _, further⟩ := follows
          have goesOn := further.goesOn
          rw [taken] at all goesOn
          obtain ⟨isOver, complete⟩ :=
            Inflow.told_of_read reads.waiting goesOn
          rw [still] at isOver complete
          refine ⟨?_, ?_⟩
          · rw [all, complete]
            exact (List.append_nil _).symm
          · rw [isOver]
            exact nofun

end Endpoint

end LatencyBench

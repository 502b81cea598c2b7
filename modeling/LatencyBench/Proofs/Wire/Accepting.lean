/-
One outcome of accepting.

The accepting task can end in many ways: with a connection, with a fault of
its own, because it is called off, or because the runtime is gone.  Whatever
its peer does and whoever calls it off at whatever moment, it reports nothing
before it ends and one outcome when it ends, and nothing else is reported
before a connection is.
-/

import LatencyBench.Connection.Endpoint
import LatencyBench.Proofs.Wire.Completions

namespace LatencyBench

open Net WebSocket

def Event.isRefusal : Event → Bool
  | .cancelled => true
  | .failed (.accept _) => true
  | .failed (.handshake _) => true
  | _ => false

def Event.isEstablished : Event → Bool
  | .established _ => true
  | _ => false

def Event.isOutcome (event : Event) : Bool :=
  event.isEstablished || event.isRefusal

theorem Event.OfConnection.isOutcome {now : Instant} {event : Event}
    (reported : event.OfConnection now) : event.isOutcome = false := by
  cases reported <;> rfl

/-- Everything that can happen to a transport: a step of its own, a change at
the far end of its socket, a call on its connection, and the three ways of
calling it off. -/
inductive Incident where
  | turn (now : Instant) (step : EndpointStep)
  | farEnd (change : Socket → Socket)
  | call (made : ConnectionCall)
  | cancelAccept
  | cancelSession
  | halt

def Incident.isHalt : Incident → Bool
  | .halt => true
  | _ => false

namespace Endpoint

def meet (endpoint : Endpoint) : Incident → Endpoint × List Event
  | .turn now step => endpoint.turn now step
  | .farEnd change => (endpoint.onSocket change, [])
  | .call made => endpoint.perform made
  | .cancelAccept => (endpoint.cancelAccept, [])
  | .cancelSession => (endpoint.cancelSession, [])
  | .halt => (endpoint.halt, [])

/-- What becomes of a transport in the course of many incidents, and
everything that is completed. -/
def course (endpoint : Endpoint) : List Incident → Endpoint × List Event
  | [] => (endpoint, [])
  | incident :: rest =>
      let (next, events) := endpoint.meet incident
      let (last, more) := next.course rest
      (last, events ++ more)

theorem course_append (endpoint : Endpoint) (first later : List Incident) :
    endpoint.course (first ++ later) =
      (((endpoint.course first).1.course later).1,
        (endpoint.course first).2 ++
          ((endpoint.course first).1.course later).2) := by
  induction first generalizing endpoint with
  | nil => rfl
  | cons incident rest inductionHypothesis =>
      simp only [List.cons_append, course, inductionHypothesis,
        List.append_assoc]

/-! ### What one incident can do -/

/-- What lasts as long as the runtime does. -/
structure Alike (before after : Endpoint) : Prop where
  transport : after.transport = before.transport
  halted : after.halted = before.halted

/-- What an incident can do while the runtime lasts: the accepting task goes
on or has ended before, it ends with a connection, or it ends without one. -/
inductive Met (now : Instant) (before after : Endpoint) :
    List Event → Prop where
  | goesOn (events : List Event)
      (accepting : after.accepting = .ended ↔ before.accepting = .ended)
      (bare : before.link = none → after.link = none ∧ events = [])
      (quiet : ∀ event ∈ events, event.OfConnection now)
      (alike : Alike before after) : Met now before after events
  | connects (going : before.accepting ≠ .ended)
      (ended : after.accepting = .ended) (alike : Alike before after) :
      Met now before after [.established before.connection]
  | refuses (event : Event) (refusal : event.isRefusal = true)
      (going : before.accepting ≠ .ended)
      (ended : after.accepting = .ended) (bare : after.link = before.link)
      (alike : Alike before after) : Met now before after [event]

section Turns

variable {now : Instant} {before after : Endpoint}

theorem met_still
    (accepting : after.accepting = .ended ↔ before.accepting = .ended)
    (same : after.link = before.link) (alike : Alike before after) :
    Met now before after [] := by
  refine .goesOn [] accepting ?_ (by simp) alike
  intro bare
  exact ⟨same.trans bare, rfl⟩

theorem met_nothing (endpoint : Endpoint) : Met now endpoint endpoint [] :=
  met_still Iff.rfl rfl ⟨rfl, rfl⟩

theorem onSocket_met (endpoint : Endpoint) (change : Socket → Socket) :
    Met now endpoint (endpoint.onSocket change) [] :=
  met_still Iff.rfl rfl ⟨rfl, rfl⟩

theorem connect_met (endpoint : Endpoint) (addressKnown : Bool) :
    Met now endpoint (endpoint.connect addressKnown) [] := by
  unfold connect
  split
  · exact met_still Iff.rfl rfl ⟨rfl, rfl⟩
  · exact endpoint.met_nothing

theorem accept_met (endpoint : Endpoint) :
    Met now endpoint endpoint.accept.1 endpoint.accept.2 := by
  unfold accept
  split
  case h_1 waiting _ =>
      have going : endpoint.accepting ≠ .ended := by simp [waiting]
      by_cases unknown : !endpoint.addressKnown
      · rw [if_pos unknown]
        exact .refuses .cancelled rfl going rfl rfl ⟨rfl, rfl⟩
      · rw [if_neg unknown]
        split
        · exact .connects going rfl ⟨rfl, rfl⟩
        · refine met_still ?_ rfl ⟨rfl, rfl⟩
          simp [going]
  case h_2 => exact endpoint.met_nothing

theorem acceptFails_met (endpoint : Endpoint) (error : IoError) :
    Met now endpoint (endpoint.acceptFails error).1
      (endpoint.acceptFails error).2 := by
  unfold acceptFails
  split
  case h_1 waiting =>
      have going : endpoint.accepting ≠ .ended := by simp [waiting]
      exact .refuses _ rfl going rfl rfl ⟨rfl, rfl⟩
  case h_2 => exact endpoint.met_nothing

theorem giveUpAccepting_met (endpoint : Endpoint) :
    Met now endpoint endpoint.giveUpAccepting.1 endpoint.giveUpAccepting.2 := by
  unfold giveUpAccepting
  split
  case isTrue called =>
      exact .refuses .cancelled rfl called.1 rfl rfl ⟨rfl, rfl⟩
  case isFalse => exact endpoint.met_nothing

section Upgrading

variable {endpoint : Endpoint} (going : endpoint.accepting ≠ .ended)

include going

theorem agreeUpgrade_met (socket : Socket) (response : List UInt8) :
    Met now endpoint (endpoint.agreeUpgrade socket response).1
      (endpoint.agreeUpgrade socket response).2 := by
  unfold agreeUpgrade
  split
  · exact .refuses _ rfl going rfl rfl ⟨rfl, rfl⟩
  · exact .connects going rfl ⟨rfl, rfl⟩

theorem upgradePiece_met (upgrade : Upgrade) (socket : Socket) :
    Met now endpoint (endpoint.upgradePiece upgrade socket).1
      (endpoint.upgradePiece upgrade socket).2 := by
  unfold upgradePiece
  cases socket.endReached with
  | some ending =>
      cases ending with
      | finished => exact .refuses _ rfl going rfl rfl ⟨rfl, rfl⟩
      | failed error => exact .refuses _ rfl going rfl rfl ⟨rfl, rfl⟩
  | none =>
      dsimp only
      split
      · exact endpoint.met_nothing
      · split
        · refine met_still ?_ rfl ⟨rfl, rfl⟩
          simp [going]
        · exact agreeUpgrade_met going _ _
        · exact .refuses _ rfl going rfl rfl ⟨rfl, rfl⟩

end Upgrading

theorem upgrade_met (endpoint : Endpoint) :
    Met now endpoint endpoint.upgrade.1 endpoint.upgrade.2 := by
  unfold Endpoint.upgrade
  split
  case h_1 upgrading _ =>
      have going : endpoint.accepting ≠ .ended := by simp [upgrading]
      exact upgradePiece_met going _ _
  case h_2 => exact endpoint.met_nothing

theorem onLink_met (endpoint : Endpoint) (turn : Link → Socket → LinkStep)
    (reported : ∀ link socket, ∀ event ∈ (turn link socket).events,
      event.OfConnection now) :
    Met now endpoint (endpoint.onLink turn).1 (endpoint.onLink turn).2 := by
  unfold onLink
  split
  case h_1 linked _ =>
      refine .goesOn _ Iff.rfl ?_ (reported _ _) ⟨rfl, rfl⟩
      simp [linked]
  case h_2 => exact endpoint.met_nothing

theorem perform_met (endpoint : Endpoint) (made : ConnectionCall) :
    Met now endpoint (endpoint.perform made).1 (endpoint.perform made).2 := by
  unfold perform
  split
  case h_1 => exact endpoint.met_nothing
  case h_2 link linked =>
      split
      · have reported := link.perform_ofConnection now made.call
        refine .goesOn _ Iff.rfl ?_ reported ⟨rfl, rfl⟩
        simp [linked]
      · exact endpoint.met_nothing

theorem taskTurn_met (endpoint : Endpoint) (now : Instant)
    (step : EndpointStep) :
    Met now endpoint (endpoint.taskTurn now step).1
      (endpoint.taskTurn now step).2 := by
  cases step with
  | accept => exact endpoint.accept_met
  | acceptFails error => exact endpoint.acceptFails_met error
  | giveUpAccepting => exact endpoint.giveUpAccepting_met
  | upgrade => exact endpoint.upgrade_met
  | receive most =>
      exact endpoint.onLink_met _ fun link socket =>
        link.receive_ofConnection socket now most
  | stopReceiving =>
      apply endpoint.onLink_met
      simp
  | send room =>
      exact endpoint.onLink_met _ fun link socket =>
        link.send_ofConnection socket now room
  | stopSending =>
      exact endpoint.onLink_met _ fun link socket =>
        link.stopSending_ofConnection socket now
  | connect _ => exact endpoint.met_nothing
  | arrive _ => exact endpoint.met_nothing
  | finish => exact endpoint.met_nothing
  | hangUp => exact endpoint.met_nothing
  | reset => exact endpoint.met_nothing

theorem turn_met (endpoint : Endpoint) (now : Instant) (step : EndpointStep) :
    Met now endpoint (endpoint.turn now step).1 (endpoint.turn now step).2 := by
  unfold turn
  split
  · exact endpoint.connect_met _
  · exact endpoint.onSocket_met _
  · exact endpoint.onSocket_met _
  · exact endpoint.onSocket_met _
  · exact endpoint.onSocket_met _
  · split
    · exact endpoint.met_nothing
    · exact endpoint.taskTurn_met now _

/-- The step lemma. -/
theorem meet_met (endpoint : Endpoint) (incident : Incident)
    (lasting : incident.isHalt = false) :
    ∃ now, Met now endpoint (endpoint.meet incident).1
      (endpoint.meet incident).2 := by
  cases incident with
  | turn now step => exact ⟨now, endpoint.turn_met now step⟩
  | farEnd change => exact ⟨0, endpoint.onSocket_met change⟩
  | call made => exact ⟨0, endpoint.perform_met made⟩
  | cancelAccept => exact ⟨0, met_still Iff.rfl rfl ⟨rfl, rfl⟩⟩
  | cancelSession =>
      refine ⟨0, .goesOn [] Iff.rfl ?_ (by simp) ⟨rfl, rfl⟩⟩
      intro bare
      simp [meet, cancelSession, bare]
  | halt => cases lasting

end Turns

/-! ### What has been reported -/

/-- Where accepting stands after everything that was completed so far. -/
inductive Reported (endpoint : Endpoint) : List Event → Prop where
  | going (going : endpoint.accepting ≠ .ended)
      (bare : endpoint.link = none) : Reported endpoint []
  | dropped (ended : endpoint.accepting = .ended)
      (bare : endpoint.link = none) (halted : endpoint.halted = true) :
      Reported endpoint []
  | refused (event : Event) (refusal : event.isRefusal = true)
      (ended : endpoint.accepting = .ended)
      (bare : endpoint.link = none) : Reported endpoint [event]
  | connected (rest : List Event) (ended : endpoint.accepting = .ended)
      (quiet : ∀ event ∈ rest, event.isOutcome = false) :
      Reported endpoint (.established endpoint.connection :: rest)

variable {now : Instant} {before after : Endpoint} {past events : List Event}

theorem start_reported (transport : Transport) :
    Reported (start transport) [] :=
  .going (by simp [start]) rfl

theorem Alike.connection (alike : Alike before after) :
    after.connection = before.connection := by
  simp only [Endpoint.connection, alike.transport]

theorem Reported.met (reported : Reported before past)
    (met : Met now before after events) :
    Reported after (past ++ events) := by
  cases reported with
  | going going bare =>
      cases met with
      | goesOn _ accepting lone _ _ =>
          obtain ⟨bare, nothing⟩ := lone bare
          rw [nothing]
          exact .going (fun ended => going (accepting.mp ended)) bare
      | connects _ ended alike =>
          rw [← alike.connection]
          exact .connected [] ended (by simp)
      | refuses event refusal _ ended same _ =>
          exact .refused event refusal ended (same.trans bare)
  | dropped ended bare halted =>
      cases met with
      | goesOn _ accepting lone _ alike =>
          obtain ⟨bare, nothing⟩ := lone bare
          rw [nothing]
          exact .dropped (accepting.mpr ended) bare
            (alike.halted.trans halted)
      | connects going _ _ => exact absurd ended going
      | refuses _ _ going _ _ _ => exact absurd ended going
  | refused event refusal ended bare =>
      cases met with
      | goesOn _ accepting lone _ _ =>
          obtain ⟨bare, nothing⟩ := lone bare
          rw [nothing]
          exact .refused event refusal (accepting.mpr ended) bare
      | connects going _ _ => exact absurd ended going
      | refuses _ _ going _ _ _ => exact absurd ended going
  | connected rest ended quiet =>
      cases met with
      | goesOn more accepting _ silent alike =>
          rw [List.cons_append, ← alike.connection]
          apply Reported.connected (rest ++ _) (accepting.mpr ended)
          rw [List.forall_mem_append]
          exact ⟨quiet, fun event member => (silent event member).isOutcome⟩
      | connects going _ _ => exact absurd ended going
      | refuses _ _ going _ _ _ => exact absurd ended going

theorem Reported.halt (reported : Reported before past) :
    Reported before.halt past := by
  cases reported with
  | going going bare => exact .dropped rfl (by simp [Endpoint.halt, bare]) rfl
  | dropped ended bare halted =>
      exact .dropped rfl (by simp [Endpoint.halt, bare]) rfl
  | refused event refusal ended bare =>
      exact .refused event refusal rfl (by simp [Endpoint.halt, bare])
  | connected rest ended quiet => exact .connected rest rfl quiet

theorem Reported.meet (reported : Reported before past)
    (incident : Incident) :
    Reported (before.meet incident).1
      (past ++ (before.meet incident).2) := by
  cases last : incident.isHalt with
  | false =>
      obtain ⟨now, met⟩ := before.meet_met incident last
      exact reported.met met
  | true =>
      cases incident with
      | halt =>
          simp only [Endpoint.meet, List.append_nil]
          exact reported.halt
      | _ => cases last

/-- The run lemma. -/
theorem Reported.course (reported : Reported before past)
    (incidents : List Incident) :
    Reported (before.course incidents).1
      (past ++ (before.course incidents).2) := by
  induction incidents generalizing before past with
  | nil =>
      simp only [Endpoint.course, List.append_nil]
      exact reported
  | cons incident rest inductionHypothesis =>
      have last := inductionHypothesis (reported.meet incident)
      rw [List.append_assoc] at last
      exact last

theorem Met.alike (met : Met now before after events) :
    Alike before after := by
  cases met with
  | goesOn _ _ _ _ alike => exact alike
  | connects _ _ alike => exact alike
  | refuses _ _ _ _ _ alike => exact alike

theorem meet_transport (endpoint : Endpoint) (incident : Incident) :
    (endpoint.meet incident).1.transport = endpoint.transport := by
  cases last : incident.isHalt with
  | false =>
      obtain ⟨now, met⟩ := endpoint.meet_met incident last
      exact met.alike.transport
  | true =>
      cases incident with
      | halt => rfl
      | _ => cases last

theorem course_transport (endpoint : Endpoint) (incidents : List Incident) :
    (endpoint.course incidents).1.transport = endpoint.transport := by
  induction incidents generalizing endpoint with
  | nil => rfl
  | cons incident rest inductionHypothesis =>
      exact (inductionHypothesis (endpoint.meet incident).1).trans
        (endpoint.meet_transport incident)

theorem course_halted (endpoint : Endpoint) (incidents : List Incident)
    (lasting : ∀ incident ∈ incidents, incident.isHalt = false) :
    (endpoint.course incidents).1.halted = endpoint.halted := by
  induction incidents generalizing endpoint with
  | nil => rfl
  | cons incident rest inductionHypothesis =>
      rw [List.forall_mem_cons] at lasting
      obtain ⟨now, met⟩ := endpoint.meet_met incident lasting.1
      exact (inductionHypothesis (endpoint.meet incident).1 lasting.2).trans
        met.alike.halted

/-! ### What that says about the events -/

/-- Whether nothing that a connection reports comes before the connection. -/
def ConnectionFirst (events : List Event) : Prop :=
  ∀ earlier event later, events = earlier ++ event :: later →
    event.isOutcome = false → ∃ connection, .established connection ∈ earlier

theorem Reported.nothing_of_going (reported : Reported after past)
    (going : after.accepting ≠ .ended) : past = [] := by
  cases reported with
  | going => rfl
  | dropped => rfl
  | refused _ _ ended _ => exact absurd ended going
  | connected _ ended _ => exact absurd ended going

theorem Reported.outcomes_le (reported : Reported after past) :
    past.countP Event.isOutcome ≤ 1 := by
  cases reported with
  | going => simp
  | dropped => simp
  | refused event _ _ _ =>
      exact List.countP_le_length
  | connected rest _ quiet =>
      rw [List.countP_cons, List.countP_eq_zero.mpr (by simpa using quiet)]
      split <;> omega

theorem Reported.outcome_of_ended (reported : Reported after past)
    (ended : after.accepting = .ended) (lasting : after.halted = false) :
    past.countP Event.isOutcome = 1 := by
  cases reported with
  | going going _ => exact absurd ended going
  | dropped _ _ halted =>
      rw [lasting] at halted
      cases halted
  | refused event refusal _ _ =>
      simp [Event.isOutcome, refusal]
  | connected rest _ quiet =>
      rw [List.countP_cons, List.countP_eq_zero.mpr (by simpa using quiet)]
      rfl

theorem Reported.first (reported : Reported after past)
    {earlier later : List Event} {event : Event}
    (parts : past = earlier ++ event :: later)
    (outcome : event.isOutcome = true) : earlier = [] := by
  cases earlier with
  | nil => rfl
  | cons head tail =>
      cases reported with
      | going => cases parts
      | dropped => cases parts
      | refused _ _ _ _ => simp at parts
      | connected rest _ quiet =>
          rw [List.cons_append, List.cons.injEq] at parts
          have silent := quiet event (by simp [parts.2])
          rw [outcome] at silent
          cases silent

theorem Reported.connectionFirst (reported : Reported after past) :
    ConnectionFirst past := by
  intro earlier event later parts silent
  cases reported with
  | going => simp at parts
  | dropped => simp at parts
  | refused other refusal _ _ =>
      cases earlier with
      | nil =>
          rw [List.nil_append, List.cons.injEq] at parts
          rw [← parts.1, Event.isOutcome, refusal, Bool.or_true] at silent
          cases silent
      | cons head tail => simp at parts
  | connected rest _ _ =>
      cases earlier with
      | nil =>
          rw [List.nil_append, List.cons.injEq] at parts
          rw [← parts.1] at silent
          cases silent
      | cons head tail =>
          rw [List.cons_append, List.cons.injEq] at parts
          refine ⟨after.connection, ?_⟩
          rw [parts.1]
          exact List.mem_cons_self

theorem Reported.connection (reported : Reported after past)
    {connection : Connection} (member : .established connection ∈ past) :
    connection = after.connection := by
  cases reported with
  | going => cases member
  | dropped => cases member
  | refused event refusal _ _ =>
      rw [← List.mem_singleton.mp member] at refusal
      cases refusal
  | connected rest _ quiet =>
      rcases List.mem_cons.mp member with here | later
      · cases here
        rfl
      · have silent := quiet _ later
        cases silent

/-- What the accepting task of a new transport reports in the course of some
incidents. -/
structure ReportsOnce (transport : Transport) (incidents : List Incident) :
    Prop where
  quietBefore :
    ((start transport).course incidents).1.accepting ≠ .ended →
      ((start transport).course incidents).2 = []
  onceAfter : (∀ incident ∈ incidents, incident.isHalt = false) →
    ((start transport).course incidents).1.accepting = .ended →
      ((start transport).course incidents).2.countP Event.isOutcome = 1
  atMostOnce :
    ((start transport).course incidents).2.countP Event.isOutcome ≤ 1
  ordered : ConnectionFirst ((start transport).course incidents).2

theorem course_reported (transport : Transport) (incidents : List Incident) :
    Reported ((start transport).course incidents).1
      ((start transport).course incidents).2 :=
  (start_reported transport).course incidents

theorem course_reportsOnce (transport : Transport)
    (incidents : List Incident) : ReportsOnce transport incidents where
  quietBefore := (course_reported transport incidents).nothing_of_going
  onceAfter lasting ended := by
    apply (course_reported transport incidents).outcome_of_ended ended
    rw [course_halted _ incidents lasting]
    rfl
  atMostOnce := (course_reported transport incidents).outcomes_le
  ordered := (course_reported transport incidents).connectionFirst

example :
    ((start .rawTcp).course
      [.turn 0 (.connect false), .cancelAccept, .turn 0 .accept,
       .turn 0 .giveUpAccepting]).2 = [.cancelled] := rfl

end Endpoint

end LatencyBench

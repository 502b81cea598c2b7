/-
What the tasks of a connection can report: messages as they arrive, payloads
that are out, and faults of a connection that has been set up.  None of that
is ever the outcome of accepting a peer.
-/

import LatencyBench.Connection.Link

namespace LatencyBench

open Net WebSocket

inductive Event.OfConnection (now : Instant) : Event → Prop where
  | received (payload : Payload) :
      OfConnection now (.received payload now)
  | sent (length : Nat) : OfConnection now (.sent length)
  | closed : OfConnection now (.failed .closed)
  | io (text : String) : OfConnection now (.failed (.io text))

section Faults

variable {now : Instant}

theorem Fault.ofIoError_ofConnection (error : IoError) :
    Event.OfConnection now (.failed (.ofIoError error)) := by
  unfold Fault.ofIoError
  split
  · exact .closed
  · exact .io error.text

theorem Net.StreamEnd.fault_ofConnection (ending : StreamEnd) :
    Event.OfConnection now (.failed ending.fault) := by
  cases ending with
  | finished => exact .closed
  | failed error => exact Fault.ofIoError_ofConnection error

theorem Link.refusal?_ofConnection {link : Link} {fault : Fault}
    (refused : link.refusal? = some fault) :
    Event.OfConnection now (.failed fault) := by
  unfold Link.refusal? at refused
  split at refused
  · cases refused
    exact .io _
  · cases refused
    exact .closed
  · cases refused

theorem Intake.step_faults (intake : Intake) (byte : UInt8) {fault : Fault}
    (member : Received.fault fault ∈ (intake.step byte).2) :
    Event.OfConnection now (.failed fault) := by
  cases intake with
  | block filled =>
      simp only [Intake.step] at member
      split at member
      · cases member
      · simp at member
  | frames receiver =>
      simp only [Intake.step] at member
      generalize (receiver.step byte).2 = delivery at member
      cases delivery with
      | message kind payload =>
          simp only [Intake.ofDelivery] at member
          split at member
          · cases member
          · simp at member
      | violation violation =>
          simp only [Intake.ofDelivery, List.mem_singleton,
            Received.fault.injEq] at member
          rw [member]
          exact .io violation.message
      | nothing => simp [Intake.ofDelivery] at member
      | ping payload => simp [Intake.ofDelivery] at member
      | pong payload => simp [Intake.ofDelivery] at member
      | close answer => simp [Intake.ofDelivery] at member
  | _ => cases member

theorem Intake.feed_faults (intake : Intake) (bytes : List UInt8)
    {fault : Fault} (member : Received.fault fault ∈ (intake.feed bytes).2) :
    Event.OfConnection now (.failed fault) := by
  induction bytes generalizing intake with
  | nil => cases member
  | cons byte rest inductionHypothesis =>
      rcases List.mem_append.mp member with first | later
      · exact intake.step_faults byte first
      · exact inductionHypothesis (intake.step byte).1 later

end Faults

namespace Link

variable (link : Link) (socket : Socket) (now : Instant)

theorem actOn_ofConnection (received : List Received)
    (faults : ∀ fault, .fault fault ∈ received →
      Event.OfConnection now (.failed fault)) :
    ∀ event ∈ (link.actOn socket now received).events,
      event.OfConnection now := by
  induction received generalizing link socket with
  | nil => simp [actOn]
  | cons first rest inductionHypothesis =>
      have onward := fun link socket => inductionHypothesis link socket
        fun fault member => faults fault (List.mem_cons_of_mem first member)
      cases first with
      | message payload =>
          simp only [actOn, List.forall_mem_cons]
          exact ⟨.received payload, onward link socket⟩
      | answer bytes =>
          unfold actOn
          rcases link.answer socket bytes with ⟨result, link, socket⟩
          cases result with
          | error error =>
              simp only [endReceiving, List.forall_mem_singleton]
              exact Fault.ofIoError_ofConnection error
          | ok _ => exact onward link socket
      | farewell answer =>
          simp only [actOn, endReceiving, List.forall_mem_singleton]
          exact .closed
      | fault fault =>
          simp only [actOn, endReceiving, List.forall_mem_singleton]
          exact faults fault List.mem_cons_self

theorem meetEnd_ofConnection {step : LinkStep}
    (reported : ∀ event ∈ step.events, event.OfConnection now) :
    ∀ event ∈ (meetEnd step).events, event.OfConnection now := by
  unfold meetEnd
  split
  · simp only [endReceiving, List.forall_mem_append,
      List.forall_mem_singleton]
    exact ⟨reported, StreamEnd.fault_ofConnection _⟩
  · exact reported

theorem receive_ofConnection (most : Nat) :
    ∀ event ∈ (link.receive socket most now).events,
      event.OfConnection now := by
  unfold receive
  split
  · apply meetEnd_ofConnection
    apply actOn_ofConnection
    intro fault member
    exact link.intake.feed_faults _ member
  · simp

theorem write_ofConnection (room : Nat) (payload : Payload)
    (unsent : List UInt8) :
    ∀ event ∈ (link.write socket room payload unsent).events,
      event.OfConnection now := by
  unfold write
  rcases socket.write (unsent.take room) with ⟨result, socket⟩
  cases result with
  | error error =>
      simp only [endSending, List.forall_mem_singleton]
      exact Fault.ofIoError_ofConnection error
  | ok _ =>
      by_cases fits : unsent.length ≤ room
      · simp only [if_pos fits, List.forall_mem_singleton]
        exact .sent payload.length
      · simp [if_neg fits]

theorem send_ofConnection (room : Nat) :
    ∀ event ∈ (link.send socket room).events, event.OfConnection now := by
  unfold send
  split
  · exact link.write_ofConnection socket now room _ _
  · dsimp only
    split
    case h_1 refused =>
        simp only [endSending, List.forall_mem_singleton]
        exact refusal?_ofConnection refused
    case h_2 => exact write_ofConnection _ socket now room _ _
  · simp

theorem stopSending_ofConnection :
    ∀ event ∈ (link.stopSending socket).events, event.OfConnection now := by
  unfold stopSending
  split <;> simp

theorem perform_ofConnection (call : Call) :
    ∀ event ∈ (link.perform call).2, event.OfConnection now := by
  cases call with
  | send payload =>
      simp only [perform, post]
      split
      · simp only [List.forall_mem_singleton]
        exact .closed
      · simp
  | arm => simp [perform]
  | close => simp [perform]
  | drop => simp [perform]

end Link

end LatencyBench

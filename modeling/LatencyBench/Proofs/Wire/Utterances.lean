/-
What is said on a connection.

A payload is said in one piece; over WebSocket the receive loop answers pings
and the sending task takes its leave in frames of their own.  A client makes
of these a message for each payload, up to the leave.
-/

import LatencyBench.Proofs.WebSocket.Stream
import LatencyBench.Proofs.Wire.Serving

namespace LatencyBench

open Net WebSocket

/-- What the tasks of a connection say to its peer. -/
inductive Utterance where
  | data (payload : Payload)
  | pong (payload : List UInt8)
  | close (payload : List UInt8)
deriving DecidableEq, Repr

def dataMessage (payload : Payload) : MessageKind × List UInt8 :=
  (if Utf8.isValid payload then .text else .binary, payload)

namespace Utterance

def bytes (transport : Transport) : Utterance → List UInt8
  | .data payload => transport.wireBytes payload
  | .pong payload => pongBytes payload
  | .close payload => closeBytes payload

def frame : Utterance → Frame
  | .data payload => .whole (dataMessage payload).1.opcode none payload
  | .pong payload => .whole .pong none payload
  | .close payload => .whole .close none payload

def payload? : Utterance → Option Payload
  | .data payload => some payload
  | _ => none

/-- Whether an utterance can be made on a transport: answers and last words
are short, and there are none over raw TCP. -/
def Suits (transport : Transport) : Utterance → Prop
  | .data _ => True
  | .pong payload => transport = .webSocket ∧ payload.length ≤ 125
  | .close payload => transport = .webSocket ∧ payload.length ≤ 125

theorem bytes_webSocket (utterance : Utterance) :
    utterance.bytes .webSocket = utterance.frame.encode := by
  cases utterance with
  | data payload =>
      cases text : Utf8.isValid payload with
      | true =>
          simp [bytes, frame, Transport.wireBytes, dataMessage, text,
            MessageKind.opcode]
      | false =>
          simp [bytes, frame, Transport.wireBytes, dataMessage, text,
            MessageKind.opcode]
  | pong payload => rfl
  | close payload => rfl

end Utterance

def bytesOfAll (transport : Transport) (utterances : List Utterance) :
    List UInt8 :=
  utterances.flatMap (Utterance.bytes transport)

def payloadsOf (utterances : List Utterance) : List Payload :=
  utterances.filterMap Utterance.payload?

def payloadsHeard : List Utterance → List Payload
  | [] => []
  | .data payload :: rest => payload :: payloadsHeard rest
  | .pong _ :: rest => payloadsHeard rest
  | .close _ :: _ => []

section Lists

variable {transport : Transport} {first later utterances : List Utterance}

theorem bytesOfAll_append (transport : Transport)
    (first later : List Utterance) :
    bytesOfAll transport (first ++ later) =
      bytesOfAll transport first ++ bytesOfAll transport later :=
  List.flatMap_append

theorem bytesOfAll_singleton (transport : Transport) (utterance : Utterance) :
    bytesOfAll transport [utterance] = utterance.bytes transport :=
  List.flatMap_singleton ..

theorem payloadsOf_append (first later : List Utterance) :
    payloadsOf (first ++ later) = payloadsOf first ++ payloadsOf later :=
  List.filterMap_append

theorem bytesOfAll_rawTcp
    (suits : ∀ utterance ∈ utterances, utterance.Suits .rawTcp) :
    bytesOfAll .rawTcp utterances = (payloadsOf utterances).flatten := by
  induction utterances with
  | nil => rfl
  | cons utterance rest inductionHypothesis =>
      rw [List.forall_mem_cons] at suits
      cases utterance with
      | data payload =>
          exact congrArg (payload ++ ·) (inductionHypothesis suits.2)
      | pong payload => cases suits.1.1
      | close payload => cases suits.1.1

theorem payloadsHeard_take
    (all : payloadsHeard utterances = payloadsOf utterances) (count : Nat) :
    payloadsHeard (utterances.take count) =
      payloadsOf (utterances.take count) := by
  induction utterances generalizing count with
  | nil =>
      rw [List.take_nil]
      rfl
  | cons utterance rest inductionHypothesis =>
      cases count with
      | zero => rfl
      | succ count =>
          cases utterance with
          | data payload =>
              have onward := (List.cons.inj all).2
              exact congrArg (payload :: ·) (inductionHypothesis onward count)
          | pong payload => exact inductionHypothesis all count
          | close payload =>
              have nothing : payloadsOf rest = [] := all.symm
              have part :
                  (payloadsOf (rest.take count)).Sublist (payloadsOf rest) :=
                (List.take_sublist count rest).filterMap _
              rw [nothing, List.sublist_nil] at part
              exact part.symm

/-- A client makes a message of each payload up to the leave. -/
theorem messagesAfter_frames
    (suits : ∀ utterance ∈ utterances, utterance.Suits .webSocket) :
    messagesAfter none (utterances.map Utterance.frame) =
      (payloadsHeard utterances).map dataMessage := by
  induction utterances with
  | nil => rfl
  | cons utterance rest inductionHypothesis =>
      rw [List.forall_mem_cons] at suits
      have later := inductionHypothesis suits.2
      cases utterance with
      | data payload =>
          cases text : Utf8.isValid payload with
          | true =>
              simp [messagesAfter, Utterance.frame, payloadsHeard, dataMessage,
                text, Frame.whole, Frame.isAllowed, MessageKind.opcode,
                Opcode.isControl, Opcode.number, later]
          | false =>
              simp [messagesAfter, Utterance.frame, payloadsHeard, dataMessage,
                text, Frame.whole, Frame.isAllowed, MessageKind.opcode,
                Opcode.isControl, Opcode.number, later]
      | pong payload =>
          have short := suits.1.2
          simp [messagesAfter, Utterance.frame, payloadsHeard, Frame.whole,
            Frame.isAllowed, short, later]
      | close payload =>
          have short := suits.1.2
          simp [messagesAfter, Utterance.frame, payloadsHeard, Frame.whole,
            Frame.isAllowed, short]

theorem bytesOfAll_webSocket (utterances : List Utterance) :
    bytesOfAll .webSocket utterances =
      bytesOfFrames (utterances.map Utterance.frame) := by
  rw [bytesOfAll, bytesOfFrames, List.flatMap_map,
    funext Utterance.bytes_webSocket]

theorem whole_writable {opcode : Opcode} (known : opcode.isKnown = true)
    {payload : List UInt8} (short : payload.length < 2 ^ 64) :
    (Frame.whole opcode none payload).Writable where
  header := writable_of_known (show (0 : UInt8) < 8 by decide) known
  fits := short

theorem Utterance.writable {utterance : Utterance}
    (suits : utterance.Suits .webSocket)
    (short : ∀ payload, utterance.payload? = some payload →
      payload.length < 2 ^ 64) : utterance.frame.Writable := by
  cases utterance with
  | data payload =>
      apply whole_writable _ (short payload rfl)
      cases (dataMessage payload).1 <;> rfl
  | pong payload =>
      exact whole_writable rfl (Nat.lt_of_le_of_lt suits.2 (by decide))
  | close payload =>
      exact whole_writable rfl (Nat.lt_of_le_of_lt suits.2 (by decide))

/-- What a client makes of part of what is said: a message for each payload
whose frame is whole. -/
theorem messagesIn_said
    (suits : ∀ utterance ∈ utterances, utterance.Suits .webSocket)
    (short : ∀ payload ∈ payloadsOf utterances, payload.length < 2 ^ 64)
    (heard : payloadsHeard utterances = payloadsOf utterances)
    {bytes : List UInt8}
    (isPart : bytes <+: bytesOfAll .webSocket utterances) :
    ∃ count ≤ utterances.length,
      messagesIn bytes =
          (payloadsOf (utterances.take count)).map dataMessage ∧
        ∀ fewer ≤ utterances.length,
          bytesOfAll .webSocket (utterances.take fewer) <+: bytes →
            fewer ≤ count := by
  have writable : ∀ frame ∈ utterances.map Utterance.frame,
      frame.Writable := by
    rw [List.forall_mem_map]
    intro utterance member
    refine utterance.writable (suits utterance member) ?_
    intro payload same
    exact short payload (List.mem_filterMap.mpr ⟨utterance, member, same⟩)
  rw [bytesOfAll_webSocket] at isPart
  obtain ⟨count, atMost, read, _, most⟩ := framesIn_stream writable isPart
  rw [List.length_map] at atMost most
  refine ⟨count, atMost, ?_, ?_⟩
  · have taken : ∀ utterance ∈ utterances.take count,
        utterance.Suits .webSocket :=
      fun utterance member => suits utterance (List.mem_of_mem_take member)
    rw [messagesIn, read, ← List.map_take, messagesAfter_frames taken,
      payloadsHeard_take heard]
  · intro fewer within covered
    apply most fewer within
    rw [← List.map_take, ← bytesOfAll_webSocket]
    exact covered

end Lists

/-! ### Utterances in a row -/

def pongs (signals : List (List UInt8)) : List Utterance :=
  signals.map .pong

/-- Whether utterances can be made on a transport with nobody having taken
leave yet. -/
structure GoesOn (transport : Transport) (said : List Utterance) : Prop where
  suits : ∀ utterance ∈ said, utterance.Suits transport
  stays : ∀ payload, .close payload ∉ said

/-- Whether utterances can be made on a transport with no payload behind the
leave. -/
structure Talks (transport : Transport) (said : List Utterance) : Prop where
  suits : ∀ utterance ∈ said, utterance.Suits transport
  heard : payloadsHeard said = payloadsOf said

def Answers (transport : Transport) (signals : List (List UInt8)) : Prop :=
  ∀ signal ∈ signals, Utterance.Suits transport (.pong signal)

/-- Whether utterances that can be made on a transport carry no payload. -/
structure Asides (transport : Transport) (others : List Utterance) :
    Prop where
  suits : ∀ utterance ∈ others, utterance.Suits transport
  bare : payloadsOf others = []

section Rows

variable {transport : Transport} {said later others further : List Utterance}
  {signals more : List (List UInt8)}

theorem payloadsOf_pongs (signals : List (List UInt8)) :
    payloadsOf (pongs signals) = [] := by
  rw [pongs, payloadsOf, List.filterMap_map]
  exact List.filterMap_eq_nil_iff.mpr fun _ _ => rfl

theorem Answers.pongs (answers : Answers transport signals) :
    GoesOn transport (pongs signals) where
  suits := List.forall_mem_map.mpr answers
  stays := by simp [LatencyBench.pongs]

theorem Answers.append (answers : Answers transport signals)
    (others : Answers transport more) : Answers transport (signals ++ more) :=
  List.forall_mem_append.mpr ⟨answers, others⟩

theorem answers_nil (transport : Transport) : Answers transport [] :=
  List.forall_mem_nil _

theorem Answers.asides (answers : Answers transport signals) :
    Asides transport (LatencyBench.pongs signals) where
  suits := answers.pongs.suits
  bare := payloadsOf_pongs signals

theorem asides_nil (transport : Transport) : Asides transport [] :=
  ⟨List.forall_mem_nil _, rfl⟩

theorem asides_close {payload : List UInt8}
    (suits : Utterance.Suits transport (.close payload)) :
    Asides transport [.close payload] :=
  ⟨List.forall_mem_singleton.mpr suits, rfl⟩

theorem Asides.append (asides : Asides transport others)
    (onward : Asides transport further) :
    Asides transport (others ++ further) where
  suits := List.forall_mem_append.mpr ⟨asides.suits, onward.suits⟩
  bare := by
    rw [payloadsOf_append, asides.bare, onward.bare]
    rfl

theorem goesOn_nil (transport : Transport) : GoesOn transport [] :=
  ⟨List.forall_mem_nil _, by simp⟩

theorem goesOn_data (transport : Transport) (payload : Payload) :
    GoesOn transport [.data payload] :=
  ⟨List.forall_mem_singleton.mpr trivial, by simp⟩

theorem GoesOn.append (first : GoesOn transport said)
    (onward : GoesOn transport later) : GoesOn transport (said ++ later) where
  suits := List.forall_mem_append.mpr ⟨first.suits, onward.suits⟩
  stays payload := by simp [first.stays, onward.stays]

theorem payloadsHeard_append (stays : ∀ payload, .close payload ∉ said)
    (later : List Utterance) :
    payloadsHeard (said ++ later) =
      payloadsOf said ++ payloadsHeard later := by
  induction said with
  | nil => rfl
  | cons first rest inductionHypothesis =>
      have onward := inductionHypothesis fun payload member =>
        stays payload (List.mem_cons_of_mem _ member)
      cases first with
      | data payload => exact congrArg (payload :: ·) onward
      | pong payload => exact onward
      | close payload => exact absurd List.mem_cons_self (stays payload)

theorem payloadsHeard_nothing (nothing : payloadsOf later = []) :
    payloadsHeard later = [] := by
  induction later with
  | nil => rfl
  | cons first rest inductionHypothesis =>
      cases first with
      | data payload => cases nothing
      | pong payload => exact inductionHypothesis nothing
      | close payload => rfl

theorem payloadsHeard_append_nothing
    (heard : payloadsHeard said = payloadsOf said)
    (nothing : payloadsOf later = []) :
    payloadsHeard (said ++ later) = payloadsOf (said ++ later) := by
  induction said with
  | nil => exact (payloadsHeard_nothing nothing).trans nothing.symm
  | cons first rest inductionHypothesis =>
      cases first with
      | data payload =>
          have onward := inductionHypothesis (List.cons.inj heard).2
          exact congrArg (payload :: ·) onward
      | pong payload => exact inductionHypothesis heard
      | close payload =>
          have none : payloadsOf rest = [] := heard.symm
          have last : payloadsOf (rest ++ later) = [] := by
            rw [payloadsOf_append, none, nothing]
            rfl
          exact last.symm

theorem GoesOn.before (goes : GoesOn transport said)
    (talks : Talks transport later) : Talks transport (said ++ later) where
  suits := List.forall_mem_append.mpr ⟨goes.suits, talks.suits⟩
  heard := by
    rw [payloadsHeard_append goes.stays, payloadsOf_append, talks.heard]

theorem talks_nil (transport : Transport) : Talks transport [] :=
  ⟨List.forall_mem_nil _, rfl⟩

theorem GoesOn.talks (goes : GoesOn transport said) : Talks transport said :=
  List.append_nil said ▸ goes.before (talks_nil transport)

theorem Talks.asides (talks : Talks transport said)
    (asides : Asides transport others) : Talks transport (said ++ others) where
  suits := List.forall_mem_append.mpr ⟨talks.suits, asides.suits⟩
  heard := payloadsHeard_append_nothing talks.heard asides.bare

end Rows

/-! ### What the receive loop has to say -/

namespace WebSocket

def Delivery.IsShort : Delivery → Prop
  | .ping payload => payload.length ≤ 125
  | .close answer => answer.length ≤ 125
  | _ => True

theorem CloseNote.answer_short {payload : List UInt8}
    (short : payload.length ≤ 125) {note : Option CloseNote}
    (noted : CloseNote.ofPayload payload = .ok note) :
    (CloseNote.answer note).length ≤ 125 := by
  match payload, noted with
  | [], noted =>
      cases noted
      exact Nat.zero_le _
  | high :: low :: reason, noted =>
      simp only [CloseNote.ofPayload] at noted
      split at noted
      · cases noted
        rw [List.length_cons, List.length_cons] at short
        unfold CloseNote.answer
        dsimp only
        split
        · rw [List.length_append, length_bigEndian]
          omega
        · decide +kernel
      · cases noted

theorem Assembler.control_isShort (opcode : Opcode) (frame : Frame) :
    (Assembler.control opcode frame).IsShort := by
  unfold Assembler.control
  split
  · trivial
  · split
    · trivial
    case isFalse short =>
        have within := Nat.not_lt.mp short
        split
        · exact within
        · trivial
        · split
          · exact CloseNote.answer_short within ‹_›
          · trivial

theorem Assembler.add_short (assembler : Assembler) (fragments : Fragments)
    (frame : Frame) : (assembler.add fragments frame).2.IsShort := by
  unfold Assembler.add
  split
  · trivial
  · split
    · unfold Fragments.complete
      split <;> trivial
    · trivial

theorem Assembler.take_short (assembler : Assembler) (frame : Frame) :
    (assembler.take frame).2.IsShort := by
  have begins (kind : MessageKind) :
      (assembler.begin kind frame).2.IsShort := by
    unfold Assembler.begin
    split
    · trivial
    · exact assembler.add_short _ frame
  unfold Assembler.take
  split
  · trivial
  · split
    · trivial
    · split
      · unfold Assembler.proceed
        split
        · trivial
        · exact assembler.add_short _ frame
      · exact begins .text
      · exact begins .binary
      · trivial
      · exact Assembler.control_isShort _ frame

theorem Receiver.step_short (receiver : Receiver) (byte : UInt8) :
    (receiver.step byte).2.IsShort := by
  unfold Receiver.step
  dsimp only
  split
  · trivial
  · trivial
  · exact receiver.assembler.take_short _

end WebSocket

def Received.Suits (transport : Transport) : Received → Prop
  | .answer bytes =>
      ∃ payload, Utterance.Suits transport (.pong payload) ∧
        bytes = pongBytes payload
  | .farewell words =>
      ∃ payload, Utterance.Suits transport (.close payload) ∧
        words = closeBytes payload
  | _ => True

namespace Intake

def Suits (transport : Transport) : Intake → Prop
  | .block _ => transport = .rawTcp
  | _ => transport = .webSocket

variable {transport : Transport} {intake : Intake}

theorem start_suits (transport : Transport) :
    (Intake.start transport).Suits transport := by
  cases transport <;> rfl

theorem step_suits (suits : intake.Suits transport) (byte : UInt8) :
    (intake.step byte).1.Suits transport ∧
      ∀ item ∈ (intake.step byte).2, item.Suits transport := by
  have isMessage (payload : Payload) :
      ∀ item ∈ [Received.message payload], item.Suits transport :=
    List.forall_mem_singleton.mpr trivial
  cases intake with
  | block filled =>
      rw [Intake.step]
      split
      · exact ⟨suits, List.forall_mem_nil _⟩
      · exact ⟨suits, isMessage _⟩
  | frames receiver =>
      have short := receiver.step_short byte
      rw [Intake.step]
      generalize receiver.step byte = stepped at short
      rcases stepped with ⟨next, delivery⟩
      cases delivery with
      | nothing => exact ⟨suits, List.forall_mem_nil _⟩
      | message kind payload =>
          refine ⟨suits, ?_⟩
          dsimp only [ofDelivery]
          split
          · exact List.forall_mem_nil _
          · exact isMessage payload
      | ping payload =>
          exact ⟨suits, List.forall_mem_singleton.mpr
            ⟨payload, ⟨suits, short⟩, rfl⟩⟩
      | pong payload => exact ⟨suits, List.forall_mem_nil _⟩
      | close answer =>
          exact ⟨suits, List.forall_mem_singleton.mpr
            ⟨answer, ⟨suits, short⟩, rfl⟩⟩
      | violation violation =>
          exact ⟨suits, List.forall_mem_singleton.mpr trivial⟩
  | _ => exact ⟨suits, List.forall_mem_nil _⟩

theorem feed_suits (suits : intake.Suits transport) (bytes : List UInt8) :
    (intake.feed bytes).1.Suits transport ∧
      ∀ item ∈ (intake.feed bytes).2, item.Suits transport := by
  induction bytes generalizing intake with
  | nil => exact ⟨suits, List.forall_mem_nil _⟩
  | cons byte rest inductionHypothesis =>
      obtain ⟨next, items⟩ := step_suits suits byte
      obtain ⟨last, more⟩ := inductionHypothesis next
      exact ⟨last, List.forall_mem_append.mpr ⟨items, more⟩⟩

end Intake

end LatencyBench

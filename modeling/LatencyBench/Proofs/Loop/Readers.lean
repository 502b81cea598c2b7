/-
What the two ends of a session read while each says only what it must: the
session a greeting and then commands, the simulated peer its opening and then
acknowledgments.

The peer's choices are arbitrary: the host it calls, the key it draws, and a
mask for each of its frames, so no two acknowledgments need be the same bytes.
Every reader moves by single bytes, so after any part of such a stream it has
met as many units as are whole, and nothing of what is begun shows yet.
-/

import LatencyBench.Proofs.Peer.Reading
import LatencyBench.Proofs.WebSocket.Assembling
import LatencyBench.Proofs.WebSocket.Invitation
import LatencyBench.Wire

namespace LatencyBench

open Http Net WebSocket

/-! ### The units and what comes before them -/

def Transport.commandBytes (transport : Transport) : List UInt8 :=
  transport.wireBytes command

def Transport.acknowledgmentBytes (transport : Transport)
    (choices : PeerChoices) (index : Nat) : List UInt8 :=
  match transport with
  | .rawTcp => acknowledgment
  | .webSocket =>
      (Frame.whole .text (some (choices.masks index)) acknowledgment).encode

def Transport.greeting (transport : Transport) (choices : PeerChoices) :
    List UInt8 :=
  match transport with
  | .rawTcp => []
  | .webSocket => agreement (Utf8.encode choices.key)

def Transport.opening (transport : Transport) (choices : PeerChoices) :
    List UInt8 :=
  (Peer.start transport choices).written

theorem PeerChoices.isGraphic_host (choices : PeerChoices) :
    IsGraphic choices.host :=
  isGraphic_socketText _

theorem PeerChoices.isGraphic_key (choices : PeerChoices) :
    IsGraphic choices.key :=
  Base64.isGraphic_encode _

theorem commandBytes_ne_nil (transport : Transport) :
    transport.commandBytes ≠ [] := by
  cases transport <;> decide

variable {transport : Transport} {choices : PeerChoices}

theorem acknowledgmentBytes_ne_nil (transport : Transport)
    (choices : PeerChoices) (index : Nat) :
    transport.acknowledgmentBytes choices index ≠ [] := by
  cases transport with
  | rawTcp => exact List.cons_ne_nil _ _
  | webSocket => exact List.cons_ne_nil _ _

theorem sendable_whole {payload : List UInt8}
    (fits : payload.length ≤ maxFrameLength) (mask : Option MaskKey) :
    (Frame.whole .text mask payload).Sendable where
  reserved := show (0 : UInt8) < 8 by decide
  opcode := rfl
  fits := fits

/-! ### The receive loop of a session -/

namespace Intake

theorem feed_acknowledgment (transport : Transport) (choices : PeerChoices)
    (index : Nat) :
    (start transport).feed (transport.acknowledgmentBytes choices index) =
      (start transport, [.message acknowledgment]) := by
  cases transport with
  | rawTcp => rfl
  | webSocket =>
      have carries : MessageKind.text.Carries acknowledgment :=
        ⟨by decide, fun _ => by decide⟩
      have taken := Assembler.take_last .first (choices.masks index) carries
      rw [start_webSocket, Transport.acknowledgmentBytes,
        feed_frame (sendable_whole (by decide) _)]
      exact congrArg
        (fun taken => ofDelivery
          { decoder := .start
            assembler := taken.1 } taken.2) taken

/-- Of part of an acknowledgment nothing shows. -/
theorem feed_unfinished {index : Nat} {part : List UInt8}
    (proper : ProperPart part (transport.acknowledgmentBytes choices index)) :
    ((start transport).feed part).2 = [] := by
  cases transport with
  | rawTcp =>
      obtain ⟨more, longer⟩ := proper.dropLast
      have all : ((start .rawTcp).feed acknowledgment.dropLast).2 = [] := rfl
      have whole : part ++ more = acknowledgment.dropLast := longer
      rw [← whole, feed_append] at all
      exact (List.append_eq_nil_iff.mp all).1
  | webSocket =>
      obtain ⟨between, passes⟩ := (FrameDecoder.completes_frame
        (sendable_whole (by decide) _)).ofPart proper
      rw [start_webSocket, ready, feed_passes passes]

theorem feed_acknowledgments (transport : Transport) (choices : PeerChoices)
    (count : Nat) :
    (start transport).feed
        (series (transport.acknowledgmentBytes choices) count) =
      (start transport, List.replicate count (.message acknowledgment)) := by
  induction count with
  | zero => rfl
  | succ count inductionHypothesis =>
      rw [series, feed_append, inductionHypothesis, List.replicate_succ']
      simp only [feed_acknowledgment]

/-- From part of some acknowledgments no more of them have been received, and
nothing else. -/
theorem feed_of_acknowledgments {count : Nat} {bytes : List UInt8}
    (seen : bytes <+: series (transport.acknowledgmentBytes choices) count) :
    ∃ whole, whole ≤ count ∧
      ((start transport).feed bytes).2 =
        List.replicate whole (.message acknowledgment) := by
  have some := acknowledgmentBytes_ne_nil transport choices
  rw [← List.append_nil (series _ count)] at seen
  obtain ⟨whole, rest, bound, split, proper⟩ :=
    seen_of_series some (properPart_nil (some count)) seen
  refine ⟨whole, bound, ?_⟩
  rw [split, feed_append, feed_acknowledgments]
  simp only [feed_unfinished proper, List.append_nil]

end Intake

/-! ### The simulated peer -/

namespace Peer

def resting : Transport → Conversation
  | .rawTcp => .lines []
  | .webSocket => .messages (.start .client)

/-- A peer that reads commands and has met a number of them. -/
structure Met (transport : Transport) (choices : PeerChoices) (count : Nat)
    (peer : Peer) : Prop where
  sameTransport : peer.transport = transport
  sameChoices : peer.choices = choices
  going : peer.isOver = false
  commands : peer.commands = count
  frames : transport = .webSocket → peer.frames = count
  written : peer.written = transport.opening choices ++
    series (transport.acknowledgmentBytes choices) count

variable {count : Nat} {peer : Peer}

theorem Met.goOn (met : peer.Met transport choices count)
    {conversation : Conversation}
    (going : (peer.goOn conversation).isOver = false) :
    (peer.goOn conversation).Met transport choices count where
  sameTransport := met.sameTransport
  sameChoices := met.sameChoices
  going := going
  commands := met.commands
  frames := met.frames
  written := met.written

theorem Met.answerCommand (met : peer.Met transport choices count) :
    peer.answerCommand.Met transport choices (count + 1) where
  sameTransport := peer.answerCommand_transport.trans met.sameTransport
  sameChoices :=
    (peer.grew_answerCommand met.going).choices.trans met.sameChoices
  going := by
    rw [← met.going, isOver, isOver, answerCommand_conversation]
  commands := by
    rw [← met.commands]
    unfold Peer.answerCommand
    split <;> rfl
  frames same := by
    have frames := met.frames same
    have transport := met.sameTransport.trans same
    simp only [Peer.answerCommand, transport, sayFrame, say, frames]
  written := by
    have transport := met.sameTransport
    rw [series, ← List.append_assoc, ← met.written]
    cases ownTransport : peer.transport with
    | rawTcp =>
        rw [← transport, ownTransport]
        simp only [Peer.answerCommand, ownTransport, say]
        rfl
    | webSocket =>
        have frames := met.frames (transport.symm.trans ownTransport)
        rw [← transport, ownTransport, ← met.sameChoices, ← frames]
        simp only [Peer.answerCommand, ownTransport, sayFrame, say]
        rfl

/-- A command is a line with its end. -/
theorem command_line :
    ∃ line, Transport.commandBytes .rawTcp = line ++ [lineFeed] ∧
      lineFeed ∉ line ∧ Utf8.isValid line = true :=
  ⟨command.dropLast, rfl, by decide, by decide⟩

theorem feed_command (rests : peer.conversation = resting transport) :
    peer.feed transport.commandBytes = peer.answerCommand := by
  cases transport with
  | rawTcp =>
      obtain ⟨line, whole, unended, text⟩ := command_line
      rw [whole, feed_ended unended rests, takeLine_text text rests]
  | webSocket =>
      have carries : MessageKind.text.Carries command :=
        ⟨by decide, fun _ => by decide⟩
      have taken : (Assembler.start .client).take (.whole .text none command) =
          (.start .client, .message .text command) :=
        Assembler.take_whole carries
      have sendable : (Frame.whole .text none command).Sendable :=
        sendable_whole (by decide) none
      have read := feed_frame sendable rests
      rw [taken] at read
      calc
        peer.feed (Transport.commandBytes .webSocket)
          = (peer.goOn (.messages (.start .client))).answerCommand := read
        _ = peer.answerCommand := congrArg answerCommand (goOn_same rests)

theorem feed_part (rests : peer.conversation = resting transport)
    {part : List UInt8} (proper : ProperPart part transport.commandBytes) :
    ∃ conversation, peer.feed part = peer.goOn conversation ∧
      (peer.goOn conversation).isOver = false := by
  cases transport with
  | rawTcp =>
      obtain ⟨line, whole, unended, _⟩ := command_line
      have shorter := proper.dropLast
      rw [whole, List.dropLast_concat] at shorter
      have within : lineFeed ∉ part :=
        fun member => unended (shorter.subset member)
      exact ⟨_, feed_unended within rests, rfl⟩
  | webSocket =>
      obtain ⟨between, passes⟩ := (FrameDecoder.completes_frame
        (sendable_whole (by decide) none)).ofPart proper
      exact ⟨_, feed_passes passes rests, rfl⟩

/-- What holds before and after some bytes holds in between. -/
theorem Met.between {first second : List UInt8}
    (before : peer.Met transport choices count)
    (after : (peer.feed (first ++ second)).Met transport choices count) :
    (peer.feed first).Met transport choices count := by
  have there := peer.grew_feed first
  have onward := (peer.feed first).grew_feed second
  rw [← feed_append] at onward
  have written := onward.written
  rw [after.written, ← before.written] at written
  have same := there.written.eq_of_length_le written.length_le
  refine
    { sameTransport := there.transport.trans before.sameTransport
      sameChoices := there.choices.trans before.sameChoices
      going := ?_
      commands := ?_
      frames := fun isWebSocket => ?_
      written := same.symm.trans before.written }
  · cases finished : (peer.feed first).isOver with
    | false => rfl
    | true =>
        have frozen := onward.ended finished
        rw [← frozen, after.going] at finished
        cases finished
  · have lower := there.commands
    have upper := onward.commands
    rw [before.commands] at lower
    rw [after.commands] at upper
    omega
  · have lower := there.frames
    have upper := onward.frames
    rw [before.frames isWebSocket] at lower
    rw [after.frames isWebSocket] at upper
    omega

theorem met_joined (transport : Transport) (choices : PeerChoices) :
    (Peer.start transport choices).Met transport choices 0 where
  sameTransport := rfl
  sameChoices := rfl
  going := by cases transport <;> rfl
  commands := rfl
  frames _ := rfl
  written := (List.append_nil _).symm

theorem feed_greeting (transport : Transport) (choices : PeerChoices) :
    ((Peer.start transport choices).feed (transport.greeting choices)).Met
        transport choices 0 ∧
      ((Peer.start transport choices).feed
        (transport.greeting choices)).conversation = resting transport := by
  cases transport with
  | rawTcp => exact ⟨met_joined .rawTcp choices, rfl⟩
  | webSocket =>
      have read : (Peer.start .webSocket choices).feed
          (Transport.greeting .webSocket choices) =
          (Peer.start .webSocket choices).takeResponse
            (agreementHead (Utf8.encode choices.key)) :=
        feed_response rfl (scan_agreement (Utf8.encode choices.key))
      have judged : judgeResponse (Peer.start .webSocket choices).choices.key
          (agreementHead (Utf8.encode choices.key)) = .ok () :=
        judge_agreement choices.key
      rw [read, takeResponse, judged]
      exact
        ⟨{ sameTransport := rfl
           sameChoices := rfl
           going := rfl
           commands := rfl
           frames := fun _ => rfl
           written := (List.append_nil _).symm }, rfl⟩

theorem feed_commands (transport : Transport) (choices : PeerChoices)
    (count : Nat) :
    ((Peer.start transport choices).feed
        (transport.greeting choices ++
          repeated transport.commandBytes count)).Met
        transport choices count ∧
      ((Peer.start transport choices).feed
        (transport.greeting choices ++
          repeated transport.commandBytes count)).conversation =
        resting transport := by
  induction count with
  | zero =>
      rw [repeated, List.append_nil]
      exact feed_greeting transport choices
  | succ count inductionHypothesis =>
      obtain ⟨met, rests⟩ := inductionHypothesis
      rw [repeated_succ, ← List.append_assoc, feed_append, feed_command rests]
      exact ⟨met.answerCommand,
        (answerCommand_conversation _).trans rests⟩

/-- From part of a greeting and some commands no more of them have been
counted, and only those counted have been acknowledged. -/
theorem feed_of_commands {part bytes : List UInt8}
    (proper : ProperPart part transport.commandBytes)
    (seen : bytes <+: transport.greeting choices ++
      (repeated transport.commandBytes count ++ part)) :
    ∃ whole, whole ≤ count ∧
      ((Peer.start transport choices).feed bytes).Met
        transport choices whole := by
  have begins : transport.greeting choices <+: transport.greeting choices ++
      (repeated transport.commandBytes count ++ part) :=
    List.prefix_append _ _
  rcases List.prefix_or_prefix_of_prefix seen begins with
    ⟨more, greeted⟩ | ⟨rest, longer⟩
  · refine ⟨0, Nat.zero_le count, ?_⟩
    have after := (feed_greeting transport choices).1
    rw [← greeted] at after
    exact (met_joined transport choices).between after
  · rw [← longer] at seen
    have onward :=
      (List.prefix_append_right_inj (transport.greeting choices)).mp seen
    obtain ⟨whole, last, bound, split, properly⟩ :=
      seen_of_repeated proper onward
    obtain ⟨met, rests⟩ := feed_commands transport choices whole
    obtain ⟨conversation, kept, going⟩ := feed_part rests properly
    refine ⟨whole, bound, ?_⟩
    rw [← longer, split, ← List.append_assoc, feed_append, kept]
    exact met.goOn going

end Peer

end LatencyBench

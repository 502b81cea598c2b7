/-
How the simulated peer reads.

It reads by single bytes and only ever adds to what it has counted and said; a
peer that is over stays as it is.  A line that has ended is judged as a whole,
a frame has the effect that the assembler gives it, and the response to the
upgrade is judged when its last byte is there.
-/

import LatencyBench.Peer
import LatencyBench.Proofs.Http.Heads
import LatencyBench.Proofs.WebSocket.Frames

namespace LatencyBench

open Http Net WebSocket

/-! ### Growing -/

namespace Peer

/-- A peer that has come about from another by reading: it has counted and
said no less, and if it was over before it is the same. -/
structure Grew (before after : Peer) : Prop where
  transport : after.transport = before.transport
  choices : after.choices = before.choices
  delivered : after.delivered = before.delivered
  commands : before.commands ≤ after.commands
  frames : before.frames ≤ after.frames
  written : before.written <+: after.written
  ended : before.isOver = true → after = before

theorem grew_refl (peer : Peer) : peer.Grew peer where
  transport := rfl
  choices := rfl
  delivered := rfl
  commands := Nat.le_refl _
  frames := Nat.le_refl _
  written := List.prefix_refl _
  ended _ := rfl

theorem Grew.trans {first second third : Peer} (there : first.Grew second)
    (onward : second.Grew third) : first.Grew third where
  transport := onward.transport.trans there.transport
  choices := onward.choices.trans there.choices
  delivered := onward.delivered.trans there.delivered
  commands := Nat.le_trans there.commands onward.commands
  frames := Nat.le_trans there.frames onward.frames
  written := there.written.trans onward.written
  ended finished := by
    have same := there.ended finished
    rw [same] at onward
    exact onward.ended finished

theorem grew_of_going {before after : Peer} (going : before.isOver = false)
    (transport : after.transport = before.transport)
    (choices : after.choices = before.choices)
    (delivered : after.delivered = before.delivered)
    (commands : before.commands ≤ after.commands)
    (frames : before.frames ≤ after.frames)
    (written : before.written <+: after.written) : before.Grew after where
  transport := transport
  choices := choices
  delivered := delivered
  commands := commands
  frames := frames
  written := written
  ended finished := by
    rw [going] at finished
    cases finished

theorem grew_goOn (peer : Peer) (conversation : Conversation)
    (going : peer.isOver = false) : peer.Grew (peer.goOn conversation) :=
  grew_of_going going rfl rfl rfl (Nat.le_refl _) (Nat.le_refl _)
    (List.prefix_refl _)

theorem grew_say (peer : Peer) (bytes : List UInt8)
    (going : peer.isOver = false) : peer.Grew (peer.say bytes) :=
  grew_of_going going rfl rfl rfl (Nat.le_refl _) (Nat.le_refl _)
    (List.prefix_append _ bytes)

theorem grew_sayFrame (peer : Peer) (opcode : Opcode) (payload : List UInt8)
    (going : peer.isOver = false) :
    peer.Grew (peer.sayFrame opcode payload) :=
  grew_of_going going rfl rfl rfl (Nat.le_refl _) (Nat.le_succ _)
    (List.prefix_append _ _)

theorem grew_answerCommand (peer : Peer) (going : peer.isOver = false) :
    peer.Grew peer.answerCommand := by
  have counted : peer.Grew { peer with commands := peer.commands + 1 } :=
    grew_of_going going rfl rfl rfl (Nat.le_succ _) (Nat.le_refl _)
      (List.prefix_refl _)
  have still : { peer with commands := peer.commands + 1 }.isOver = false :=
    going
  unfold answerCommand
  dsimp only
  split
  · exact counted.trans (grew_say _ acknowledgment still)
  · exact counted.trans (grew_sayFrame _ _ _ still)

theorem grew_takeLine (peer : Peer) (line : List UInt8)
    (going : peer.isOver = false) : peer.Grew (peer.takeLine line) := by
  unfold takeLine
  split
  · exact (peer.grew_goOn (.lines []) going).trans
      (grew_answerCommand _ rfl)
  · exact peer.grew_goOn _ going

theorem grew_takeDelivery (peer : Peer) (receiver : Receiver)
    (delivery : Delivery) (going : peer.isOver = false) :
    peer.Grew (peer.takeDelivery receiver delivery) := by
  have onward := peer.grew_goOn (.messages receiver) going
  cases delivery with
  | nothing => exact onward
  | message _ _ => exact onward.trans (grew_answerCommand _ rfl)
  | ping payload => exact onward.trans (grew_sayFrame _ _ _ rfl)
  | pong _ => exact onward
  | close _ => exact peer.grew_goOn .over going
  | violation _ => exact peer.grew_goOn .over going

theorem grew_takeResponse (peer : Peer) (response : ResponseHead)
    (going : peer.isOver = false) :
    peer.Grew (peer.takeResponse response) := by
  unfold takeResponse
  split
  · exact peer.grew_goOn _ going
  · exact grew_of_going going rfl rfl rfl (Nat.le_refl _) (Nat.le_refl _)
      (List.prefix_refl _)

theorem grew_step (peer : Peer) (byte : UInt8) :
    peer.Grew (peer.step byte) := by
  unfold step
  cases here : peer.conversation with
  | lines line =>
      have going : peer.isOver = false := by rw [isOver, here]
      dsimp only
      split
      · exact peer.grew_takeLine line going
      · exact peer.grew_goOn _ going
  | invited reader =>
      have going : peer.isOver = false := by rw [isOver, here]
      dsimp only
      cases reader.step byte with
      | going reader => exact peer.grew_goOn _ going
      | found response => exact peer.grew_takeResponse response going
      | refused error => exact peer.grew_goOn _ going
  | messages receiver =>
      have going : peer.isOver = false := by rw [isOver, here]
      exact peer.grew_takeDelivery _ _ going
  | _ => exact peer.grew_refl

theorem grew_feed (peer : Peer) (bytes : List UInt8) :
    peer.Grew (peer.feed bytes) := by
  induction bytes generalizing peer with
  | nil => exact peer.grew_refl
  | cons byte rest inductionHypothesis =>
      exact (peer.grew_step byte).trans
        (inductionHypothesis (peer.step byte))

theorem feed_append (peer : Peer) (first second : List UInt8) :
    peer.feed (first ++ second) = (peer.feed first).feed second :=
  List.foldl_append

theorem step_delivered (peer : Peer) (byte : UInt8) (count : Nat) :
    { peer with delivered := count }.step byte =
      { peer.step byte with delivered := count } := by
  have answered (other : Peer) :
      { other with delivered := count }.answerCommand =
        { other.answerCommand with delivered := count } := by
    unfold answerCommand
    cases other.transport <;> rfl
  rcases peer with ⟨transport, choices, conversation, commands, server,
    written, delivered, frames⟩
  cases conversation with
  | lines line =>
      simp only [step]
      split
      · unfold takeLine
        split
        · exact answered
            { transport := transport
              choices := choices
              conversation := .lines []
              commands := commands
              server := server
              written := written
              delivered := delivered
              frames := frames }
        · rfl
      · rfl
  | invited reader =>
      simp only [step]
      cases reader.step byte with
      | going reader => rfl
      | found response =>
          simp only [takeResponse]
          split <;> rfl
      | refused error => rfl
  | messages receiver =>
      simp only [step]
      rcases receiver.step byte with ⟨next, delivery⟩
      cases delivery with
      | message _ _ =>
          exact answered
            { transport := transport
              choices := choices
              conversation := .messages next
              commands := commands
              server := server
              written := written
              delivered := delivered
              frames := frames }
      | nothing => rfl
      | ping _ => rfl
      | pong _ => rfl
      | close _ => rfl
      | violation _ => rfl
  | _ => rfl

theorem feed_delivered (peer : Peer) (bytes : List UInt8) (count : Nat) :
    { peer with delivered := count }.feed bytes =
      { peer.feed bytes with delivered := count } := by
  induction bytes generalizing peer with
  | nil => rfl
  | cons byte rest inductionHypothesis =>
      have first := peer.step_delivered byte count
      have onward := inductionHypothesis (peer.step byte)
      change ({ peer with delivered := count }.step byte).feed rest = _
      rw [first]
      exact onward

theorem goOn_conversation (peer : Peer) (conversation : Conversation) :
    (peer.goOn conversation).conversation = conversation := rfl

theorem goOn_same {peer : Peer} {conversation : Conversation}
    (stands : peer.conversation = conversation) :
    peer.goOn conversation = peer := by
  rw [← stands]
  rfl

theorem answerCommand_transport (peer : Peer) :
    peer.answerCommand.transport = peer.transport := by
  unfold answerCommand
  split <;> rfl

theorem answerCommand_conversation (peer : Peer) :
    peer.answerCommand.conversation = peer.conversation := by
  unfold answerCommand
  split <;> rfl

/-! ### Lines -/

section Lines

variable {peer : Peer} {line before : List UInt8}

theorem feed_unended (unended : lineFeed ∉ line)
    (reading : peer.conversation = .lines before) :
    peer.feed line = peer.goOn (.lines (before ++ line)) := by
  induction line generalizing peer before with
  | nil =>
      rw [List.append_nil, goOn_same reading]
      rfl
  | cons byte rest inductionHypothesis =>
      rw [List.mem_cons, not_or] at unended
      have kept : peer.step byte = peer.goOn (.lines (before ++ [byte])) := by
        simp only [step, reading]
        exact if_neg (Ne.symm unended.1)
      have onward := @inductionHypothesis (peer.step byte)
        (before ++ [byte]) unended.2 (by rw [kept]; rfl)
      rw [List.append_assoc, List.singleton_append] at onward
      calc
        peer.feed (byte :: rest) = (peer.step byte).feed rest := rfl
        _ = (peer.step byte).goOn (.lines (before ++ byte :: rest)) := onward
        _ = peer.goOn (.lines (before ++ byte :: rest)) := by rw [kept]; rfl

theorem goOn_takeLine (peer : Peer) (conversation : Conversation)
    (line : List UInt8) :
    (peer.goOn conversation).takeLine line = peer.takeLine line := by
  unfold takeLine
  split <;> rfl

theorem feed_ended (unended : lineFeed ∉ line)
    (reading : peer.conversation = .lines []) :
    peer.feed (line ++ [lineFeed]) = peer.takeLine line := by
  calc
    peer.feed (line ++ [lineFeed])
      = (peer.feed line).step lineFeed := peer.feed_append line [lineFeed]
    _ = (peer.goOn (.lines line)).step lineFeed := by
        rw [feed_unended unended reading, List.nil_append]
    _ = (peer.goOn (.lines line)).takeLine line := by
        simp only [step, goOn, if_true]
    _ = peer.takeLine line := peer.goOn_takeLine _ line

theorem takeLine_text (text : Utf8.isValid line = true)
    (reading : peer.conversation = .lines []) :
    peer.takeLine line = peer.answerCommand := by
  rw [takeLine, if_pos text, goOn_same reading]

theorem takeLine_broken (broken : Utf8.isValid line = false) :
    peer.takeLine line = peer.goOn (.failed notTextError) := by
  rw [takeLine, broken, if_neg Bool.false_ne_true]

theorem meetEnd_text (content : line ≠ [])
    (text : Utf8.isValid line = true)
    (reading : peer.conversation = .lines []) :
    (peer.goOn (.lines line)).meetEnd .finished =
      peer.answerCommand.goOn .over := by
  have taken := (peer.goOn_takeLine (.lines line) line).trans
    (takeLine_text text reading)
  have still := peer.answerCommand_conversation.trans reading
  cases line with
  | nil => exact absurd rfl content
  | cons byte rest =>
      unfold meetEnd
      simp only [goOn_conversation, taken, still]

theorem meetEnd_broken (content : line ≠ [])
    (broken : Utf8.isValid line = false) :
    (peer.goOn (.lines line)).meetEnd .finished =
      peer.goOn (.failed notTextError) := by
  have taken := (peer.goOn_takeLine (.lines line) line).trans
    (takeLine_broken broken)
  cases line with
  | nil => exact absurd rfl content
  | cons byte rest =>
      unfold meetEnd
      simp only [goOn_conversation, taken]

end Lines

/-! ### Frames and the response to the upgrade -/

section Frames

variable {peer : Peer} {assembler : Assembler} {bytes : List UInt8}

theorem feed_passes {decoder last : FrameDecoder}
    (passes : decoder.Passes bytes last)
    (reading : peer.conversation = .messages ⟨decoder, assembler⟩) :
    peer.feed bytes = peer.goOn (.messages ⟨last, assembler⟩) := by
  induction passes generalizing peer with
  | nothing => exact (goOn_same reading).symm
  | @byte decoder next last byte rest taken _ inductionHypothesis =>
      have kept : peer.step byte = peer.goOn (.messages ⟨next, assembler⟩) := by
        simp only [step, reading, Receiver.step, taken]
        rfl
      calc
        peer.feed (byte :: rest) = (peer.step byte).feed rest := rfl
        _ = (peer.step byte).goOn (.messages ⟨last, assembler⟩) :=
          inductionHypothesis (by rw [kept]; rfl)
        _ = peer.goOn (.messages ⟨last, assembler⟩) := by rw [kept]; rfl

theorem goOn_takeDelivery (peer : Peer) (conversation : Conversation)
    (receiver : Receiver) (delivery : Delivery) :
    (peer.goOn conversation).takeDelivery receiver delivery =
      peer.takeDelivery receiver delivery := by
  cases delivery <;> rfl

theorem feed_frame {frame : Frame} (sendable : frame.Sendable)
    (reading : peer.conversation = .messages ⟨.start, assembler⟩) :
    peer.feed frame.encode =
      peer.takeDelivery ⟨.start, (assembler.take frame).1⟩
        (assembler.take frame).2 := by
  obtain ⟨before, byte, between, whole, passes, taken⟩ :=
    FrameDecoder.completes_frame sendable
  calc
    peer.feed frame.encode = (peer.feed before).step byte := by
      rw [whole, feed_append]
      rfl
    _ = (peer.goOn (.messages ⟨between, assembler⟩)).step byte := by
      rw [feed_passes passes reading]
    _ = (peer.goOn (.messages ⟨between, assembler⟩)).takeDelivery
          ⟨.start, (assembler.take frame).1⟩ (assembler.take frame).2 := by
      simp only [step, goOn, Receiver.step, taken]
    _ = _ := peer.goOn_takeDelivery _ _ _

theorem goOn_takeResponse (peer : Peer) (conversation : Conversation)
    (response : ResponseHead) :
    (peer.goOn conversation).takeResponse response =
      peer.takeResponse response := by
  simp only [takeResponse, goOn]

theorem feed_response {reader : ResponseReader} {response : ResponseHead}
    {rest : List UInt8} (reading : peer.conversation = .invited reader)
    (found : scan ResponseReader.step reader bytes = .found response rest) :
    peer.feed bytes = (peer.takeResponse response).feed rest := by
  induction bytes generalizing peer reader with
  | nil => cases found
  | cons byte others inductionHypothesis =>
      change (peer.step byte).feed others = _
      simp only [scan] at found
      cases taken : reader.step byte with
      | going next =>
          rw [taken] at found
          have kept : peer.step byte = peer.goOn (.invited next) := by
            simp only [step, reading, taken]
          rw [kept, inductionHypothesis rfl found, goOn_takeResponse]
      | found value =>
          rw [taken] at found
          cases found
          simp only [step, reading, taken]
      | refused error =>
          rw [taken] at found
          cases found

end Frames

end Peer

end LatencyBench

/-
How the simulated peer answers lines.

Over raw TCP the peer reads bytes and knows nothing of segments.  What it does
with all of a stream is what it does with its lines in turn: each one that is a
text is answered once, and the first one that is none ends the conversation.
Since every answer is one block, the session hears as many messages.
-/

import LatencyBench.Proofs.Loop.Readers
import LatencyBench.Proofs.Text.Encoding
import Mathlib.Data.List.DropRight

namespace LatencyBench

open Http Net

/-! ### Lines -/

/-- The lines of some bytes: what stands in front of each line feed, and what
follows the last one, if it is anything. -/
def linesOf (bytes : List UInt8) : List (List UInt8) :=
  let parts := bytes.splitOn lineFeed
  if parts.getLast? = some [] then parts.dropLast else parts

/-- What follows the last line feed of some bytes. -/
def unendedLine (bytes : List UInt8) : List UInt8 :=
  bytes.rtakeWhile (· != lineFeed)

def lineCount (bytes : List UInt8) : Nat :=
  bytes.count lineFeed + if unendedLine bytes = [] then 0 else 1

section Lines

variable {line rest : List UInt8}

theorem linesOf_nil : linesOf [] = [] := rfl

theorem linesOf_unended (unended : lineFeed ∉ line) (content : line ≠ []) :
    linesOf line = [line] := by
  have other : [line].getLast? ≠ some [] := by simpa using content
  rw [linesOf, List.splitOn_eq_singleton unended, if_neg other]

theorem linesOf_ended (unended : lineFeed ∉ line) (rest : List UInt8) :
    linesOf (line ++ lineFeed :: rest) = line :: linesOf rest := by
  have parts := List.splitOn_append_cons_self_of_not_mem unended rest
  have some := List.splitOn_ne_nil lineFeed rest
  have last : (line :: rest.splitOn lineFeed).getLast? =
      (rest.splitOn lineFeed).getLast? := List.getLast?_cons_of_ne_nil some
  rw [linesOf, linesOf, parts, last]
  split
  · exact List.dropLast_cons_of_ne_nil some
  · rfl

theorem lines_induction {motive : List UInt8 → Prop}
    (unended : ∀ line, lineFeed ∉ line → motive line)
    (ended : ∀ line rest, lineFeed ∉ line → motive rest →
      motive (line ++ lineFeed :: rest))
    (bytes : List UInt8) : motive bytes := by
  induction length : bytes.length using Nat.strongRecOn generalizing bytes with
  | ind size inductionHypothesis =>
      by_cases within : lineFeed ∈ bytes
      · obtain ⟨line, rest, rfl, before⟩ :=
          List.eq_append_cons_of_mem within
        have shorter : rest.length < size := by
          rw [← length, List.length_append, List.length_cons]
          omega
        exact ended line rest before
          (inductionHypothesis rest.length shorter rest rfl)
      · exact unended bytes within

theorem unendedLine_unended (unended : lineFeed ∉ line) :
    unendedLine line = line := by
  rw [unendedLine, List.rtakeWhile_eq_self_iff]
  intro byte member
  rw [bne_iff_ne]
  exact fun same => unended (same ▸ member)

theorem unendedLine_ended (line rest : List UInt8) :
    unendedLine (line ++ lineFeed :: rest) = unendedLine rest := by
  unfold unendedLine List.rtakeWhile
  rw [List.reverse_append, List.reverse_cons, List.append_assoc,
    List.takeWhile_append]
  split
  · rename_i whole
    have all : rest.reverse.takeWhile (· != lineFeed) = rest.reverse :=
      (List.takeWhile_prefix _).eq_of_length whole
    rw [all]
    simp
  · rfl

theorem length_linesOf (bytes : List UInt8) :
    (linesOf bytes).length = lineCount bytes := by
  induction bytes using lines_induction with
  | unended line unended =>
      rw [lineCount, List.count_eq_zero_of_not_mem unended,
        unendedLine_unended unended]
      by_cases none : line = []
      · rw [if_pos none, none, linesOf_nil]
        rfl
      · rw [if_neg none, linesOf_unended unended none]
        rfl
  | ended line rest unended inductionHypothesis =>
      rw [linesOf_ended unended, List.length_cons, inductionHypothesis,
        lineCount, lineCount, unendedLine_ended, List.count_append,
        List.count_eq_zero_of_not_mem unended, List.count_cons_self]
      omega

end Lines

/-! ### The peer, line by line -/

namespace Peer

variable {peer : Peer} {line : List UInt8}

def serveLines (peer : Peer) : List (List UInt8) → Peer
  | [] => peer.goOn .over
  | line :: rest =>
      if Utf8.isValid line then peer.answerCommand.serveLines rest
      else peer.goOn (.failed notTextError)

theorem feed_failed {error : PeerError}
    (failed : peer.conversation = .failed error) (bytes : List UInt8) :
    peer.feed bytes = peer := by
  induction bytes with
  | nil => rfl
  | cons byte rest inductionHypothesis =>
      have same : peer.step byte = peer := by simp only [step, failed]
      calc
        peer.feed (byte :: rest) = (peer.step byte).feed rest := rfl
        _ = peer.feed rest := by rw [same]
        _ = peer := inductionHypothesis

/-- Reading all of a stream and meeting its end is serving its lines. -/
theorem feed_meetEnd (bytes : List UInt8)
    (reading : peer.conversation = .lines []) :
    (peer.feed bytes).meetEnd .finished = peer.serveLines (linesOf bytes) := by
  induction bytes using lines_induction generalizing peer with
  | unended line unended =>
      rw [feed_unended unended reading, List.nil_append]
      by_cases content : line = []
      · rw [content]
        rfl
      · rw [linesOf_unended unended content, serveLines]
        cases text : Utf8.isValid line with
        | true =>
            rw [meetEnd_text content text reading, if_pos rfl]
            rfl
        | false =>
            rw [meetEnd_broken content text, if_neg Bool.false_ne_true]
  | ended line rest unended inductionHypothesis =>
      have cut : line ++ lineFeed :: rest = (line ++ [lineFeed]) ++ rest := by
        rw [List.append_assoc, List.singleton_append]
      rw [linesOf_ended unended, serveLines, cut, feed_append,
        feed_ended unended reading]
      cases text : Utf8.isValid line with
      | true =>
          rw [takeLine_text text reading, if_pos rfl]
          exact inductionHypothesis
            (peer.answerCommand_conversation.trans reading)
      | false =>
          rw [takeLine_broken text, feed_failed rfl,
            if_neg Bool.false_ne_true]
          rfl

/-! ### Serving lines over raw TCP -/

def answered (peer : Peer) (count : Nat) : Peer :=
  { peer with
    commands := peer.commands + count
    written := peer.written ++ repeated acknowledgment count }

theorem answerCommand_answered (raw : peer.transport = .rawTcp)
    (count : Nat) :
    peer.answerCommand.answered count = peer.answered (count + 1) := by
  have once : peer.answerCommand =
      { peer with
        commands := peer.commands + 1
        written := peer.written ++ acknowledgment } := by
    unfold answerCommand
    simp only [raw, say]
  rw [once, answered, answered, repeated, Nat.add_right_comm, Nat.add_assoc,
    ← List.append_assoc]

theorem answered_zero (peer : Peer) : peer.answered 0 = peer := by
  rw [answered, repeated, List.append_nil, Nat.add_zero]

theorem serveLines_texts (raw : peer.transport = .rawTcp)
    {lines : List (List UInt8)}
    (texts : ∀ line ∈ lines, Utf8.isValid line = true) :
    peer.serveLines lines = (peer.answered lines.length).goOn .over := by
  induction lines generalizing peer with
  | nil => rw [serveLines, List.length_nil, answered_zero]
  | cons line rest inductionHypothesis =>
      rw [List.forall_mem_cons] at texts
      rw [serveLines, if_pos texts.1,
        inductionHypothesis (peer.answerCommand_transport.trans raw) texts.2,
        answerCommand_answered raw, List.length_cons]

theorem serveLines_broken (raw : peer.transport = .rawTcp)
    {earlier : List (List UInt8)} (later : List (List UInt8))
    (texts : ∀ line ∈ earlier, Utf8.isValid line = true)
    (broken : Utf8.isValid line = false) :
    peer.serveLines (earlier ++ line :: later) =
      (peer.answered earlier.length).goOn (.failed notTextError) := by
  induction earlier generalizing peer with
  | nil =>
      rw [List.nil_append, serveLines, broken, if_neg Bool.false_ne_true,
        List.length_nil, answered_zero]
  | cons first rest inductionHypothesis =>
      rw [List.forall_mem_cons] at texts
      rw [List.cons_append, serveLines, if_pos texts.1,
        inductionHypothesis (peer.answerCommand_transport.trans raw) texts.2,
        answerCommand_answered raw, List.length_cons]

end Peer

/-! ### Segments -/

theorem Peer.feed_segments (peer : Peer) (segments : List (List UInt8)) :
    segments.foldl Peer.feed peer = peer.feed segments.flatten := by
  induction segments generalizing peer with
  | nil => rfl
  | cons segment rest inductionHypothesis =>
      rw [List.foldl_cons, inductionHypothesis, List.flatten_cons,
        Peer.feed_append]

def Intake.feedAll (intake : Intake) :
    List (List UInt8) → Intake × List Received
  | [] => (intake, [])
  | segment :: rest =>
      let (next, received) := intake.feed segment
      let (last, more) := next.feedAll rest
      (last, received ++ more)

theorem Intake.feedAll_eq (intake : Intake) (segments : List (List UInt8)) :
    intake.feedAll segments = intake.feed segments.flatten := by
  induction segments generalizing intake with
  | nil => rfl
  | cons segment rest inductionHypothesis =>
      rw [List.flatten_cons, Intake.feed_append, ← inductionHypothesis]
      rfl

/-! ### The whole conversation -/

def IsText (bytes : List UInt8) : Prop :=
  ∃ text : String, Utf8.encode text = bytes

theorem isText_iff {bytes : List UInt8} :
    IsText bytes ↔ Utf8.isValid bytes = true :=
  Utf8.isValid_iff_exists_text.symm

/-- A peer over raw TCP that has read all of some segments and met the end of
the stream behind them. -/
def Peer.afterAll (choices : PeerChoices) (segments : List (List UInt8)) :
    Peer :=
  (segments.foldl Peer.feed (.start .rawTcp choices)).meetEnd .finished

/-- What comes of a stream of which all lines are texts: the peer has answered
each of them, and the session hears each answer as a message. -/
structure AnswersAll (count : Nat) (peer : Peer) : Prop where
  report : peer.report =
    .ok
      { commands := count
        server := none }
  written : peer.written = repeated acknowledgment count
  heard : ∀ replies, replies.flatten = peer.written →
    (Intake.start .rawTcp).feedAll replies =
      (.start .rawTcp, List.replicate count (.message acknowledgment))

/-- However a stream is cut into segments, the peer answers each of its lines
once if all of them are texts; and if one is not, it answers those before the
first of that kind and fails. -/
theorem raw_peer_answers_lines (choices : PeerChoices)
    (segments : List (List UInt8)) :
    ((∀ line ∈ linesOf segments.flatten, IsText line) →
      AnswersAll (lineCount segments.flatten) (.afterAll choices segments)) ∧
    ∀ earlier line later,
      linesOf segments.flatten = earlier ++ line :: later →
      (∀ before ∈ earlier, IsText before) → ¬ IsText line →
      (Peer.afterAll choices segments).report = .error Peer.notTextError ∧
        (Peer.afterAll choices segments).written =
          repeated acknowledgment earlier.length := by
  have served : Peer.afterAll choices segments =
      (Peer.start .rawTcp choices).serveLines
        (linesOf segments.flatten) := by
    rw [Peer.afterAll, Peer.feed_segments]
    exact Peer.feed_meetEnd segments.flatten rfl
  refine ⟨fun texts => ?_, fun earlier line later lines texts broken => ?_⟩
  · simp only [isText_iff] at texts
    rw [Peer.serveLines_texts rfl texts, length_linesOf] at served
    have written : (Peer.afterAll choices segments).written =
        repeated acknowledgment (lineCount segments.flatten) := by
      rw [served]
      rfl
    refine ⟨?_, written, fun replies whole => ?_⟩
    · rw [served]
      simp only [Peer.report, Peer.goOn, Peer.answered, Peer.start,
        Nat.zero_add]
    · rw [Intake.feedAll_eq, whole, written, ← series_constant]
      exact Intake.feed_acknowledgments .rawTcp choices _
  · simp only [isText_iff] at texts broken
    rw [lines, Peer.serveLines_broken rfl later texts
      (Bool.not_eq_true _ ▸ broken)] at served
    rw [served]
    exact ⟨rfl, rfl⟩

/-! Two lines, the second one without an end.  A segment ends inside the
character that it consists of. -/

def cutCharacter : List (List UInt8) :=
  [[0x61, 0x62], [0x0A, 0xC3], [0xA9]]

/-- Three lines, of which the second is no text. -/
def strayByte : List (List UInt8) :=
  [[0x61, 0x0A, 0xFF], [0x0A, 0x62]]

theorem cutCharacter_answered :
    (∀ line ∈ linesOf cutCharacter.flatten, IsText line) ∧
      AnswersAll 2 (.afterAll default cutCharacter) ∧
      linesOf strayByte.flatten = [[0x61], [0xFF], [0x62]] ∧
      (∀ before ∈ [[0x61]], IsText before) ∧ ¬ IsText [0xFF] ∧
      (Peer.afterAll default strayByte).report =
        .error Peer.notTextError := by
  have texts : ∀ line ∈ linesOf cutCharacter.flatten, IsText line := by
    simp only [isText_iff]
    decide
  have before : ∀ before ∈ [[0x61]], IsText before := by
    simp only [isText_iff]
    decide
  have stray : ¬ IsText [0xFF] := by
    simp only [isText_iff]
    decide
  have whole := raw_peer_answers_lines default cutCharacter
  have broken := raw_peer_answers_lines default strayByte
  exact ⟨texts, whole.1 texts, rfl, before, stray,
    (broken.2 [[0x61]] [0xFF] [[0x62]] rfl before stray).1⟩

end LatencyBench

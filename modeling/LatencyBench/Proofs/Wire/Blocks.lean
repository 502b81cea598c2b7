/-
Raw TCP cuts what comes in into blocks.

A block is eight bytes, and each whole block is a message.  Reading a stream in
pieces finds the same blocks as reading it at once, since what is left over of
one piece stands in front of the next.
-/

import LatencyBench.Proofs.Wire.Discipline

namespace LatencyBench

open Net

/-! ### Blocks -/

def blockAt (bytes : List UInt8) (index : Nat) : List UInt8 :=
  (bytes.drop (index * blockLength)).take blockLength

def wholeBlocks (bytes : List UInt8) : List (List UInt8) :=
  (List.range (bytes.length / blockLength)).map (blockAt bytes)

def leftOver (bytes : List UInt8) : List UInt8 :=
  bytes.drop (bytes.length / blockLength * blockLength)

theorem blockLength_eq : blockLength = 8 := rfl

theorem length_leftOver (bytes : List UInt8) :
    (leftOver bytes).length = bytes.length % blockLength := by
  rw [leftOver, List.length_drop, blockLength_eq]
  omega

theorem blockAt_append {bytes : List UInt8} {index : Nat}
    (whole : index < bytes.length / blockLength) (more : List UInt8) :
    blockAt (bytes ++ more) index = blockAt bytes index := by
  rw [blockLength_eq] at whole
  unfold blockAt
  rw [blockLength_eq, List.drop_append_of_le_length (by omega),
    List.take_append_of_le_length]
  rw [List.length_drop]
  omega

theorem length_of_mem_wholeBlocks {bytes block : List UInt8}
    (member : block ∈ wholeBlocks bytes) : block.length = blockLength := by
  obtain ⟨index, within, rfl⟩ := List.mem_map.mp member
  have whole := List.mem_range.mp within
  rw [blockLength_eq] at whole
  rw [blockAt, List.length_take, List.length_drop, blockLength_eq]
  omega

/-- One more byte fills a block or is left over with the others. -/
theorem wholeBlocks_concat (bytes : List UInt8) (byte : UInt8) :
    (leftOver bytes).length + 1 < blockLength ∧
        wholeBlocks (bytes ++ [byte]) = wholeBlocks bytes ∧
        leftOver (bytes ++ [byte]) = leftOver bytes ++ [byte] ∨
      (leftOver bytes).length + 1 = blockLength ∧
        wholeBlocks (bytes ++ [byte]) =
          wholeBlocks bytes ++ [leftOver bytes ++ [byte]] ∧
        leftOver (bytes ++ [byte]) = [] := by
  have earlier : (List.range (bytes.length / blockLength)).map
      (blockAt (bytes ++ [byte])) = wholeBlocks bytes := by
    apply List.map_congr_left
    intro index within
    exact blockAt_append (List.mem_range.mp within) [byte]
  have onward :
      (bytes ++ [byte]).drop (bytes.length / blockLength * blockLength) =
        leftOver bytes ++ [byte] := by
    apply List.drop_append_of_le_length
    exact Nat.div_mul_le_self bytes.length blockLength
  have length : (bytes ++ [byte]).length = bytes.length + 1 := by
    rw [List.length_append, List.length_singleton]
  have part := length_leftOver bytes
  rw [blockLength_eq] at part
  by_cases room : bytes.length % 8 + 1 < 8
  · left
    have same : (bytes ++ [byte]).length / blockLength =
        bytes.length / blockLength := by
      rw [length, blockLength_eq]
      omega
    refine ⟨?_, ?_, ?_⟩
    · rw [part, blockLength_eq]
      exact room
    · rw [wholeBlocks, same, earlier]
    · rw [leftOver, same, onward]
  · right
    have next : (bytes ++ [byte]).length / blockLength =
        bytes.length / blockLength + 1 := by
      rw [length, blockLength_eq]
      omega
    refine ⟨?_, ?_, ?_⟩
    · rw [part, blockLength_eq]
      omega
    · rw [wholeBlocks, next, List.range_succ, List.map_append, earlier,
        List.map_singleton, blockAt, onward, List.take_of_length_le]
      rw [List.length_append, part, List.length_singleton, blockLength_eq]
      omega
    · rw [leftOver, next, blockLength_eq]
      apply List.drop_of_length_le
      rw [length]
      omega

/-- The receive loop makes a message of each whole block, and keeps what is
left over. -/
theorem Intake.feed_blocks (bytes : List UInt8) :
    (Intake.block []).feed bytes =
      (.block (leftOver bytes), (wholeBlocks bytes).map .message) := by
  induction bytes using List.reverseRecOn with
  | nil => rfl
  | append_singleton bytes byte inductionHypothesis =>
      rw [Intake.feed_append, inductionHypothesis]
      rcases wholeBlocks_concat bytes byte with
        ⟨room, blocks, rest⟩ | ⟨filled, blocks, rest⟩
      · have more : (leftOver bytes ++ [byte]).length < blockLength := by
          rw [List.length_append, List.length_singleton]
          exact room
        simp only [Intake.feed, Intake.step, if_pos more, blocks, rest,
          List.append_nil]
      · have full : ¬ (leftOver bytes ++ [byte]).length < blockLength := by
          rw [List.length_append, List.length_singleton, filled]
          exact Nat.lt_irrefl _
        simp only [Intake.feed, Intake.step, if_neg full, blocks, rest,
          List.append_nil, List.map_append, List.map_singleton]

theorem flatten_wholeBlocks (bytes : List UInt8) :
    (wholeBlocks bytes).flatten ++ leftOver bytes = bytes := by
  induction bytes using List.reverseRecOn with
  | nil => rfl
  | append_singleton bytes byte inductionHypothesis =>
      rcases wholeBlocks_concat bytes byte with
        ⟨_, blocks, rest⟩ | ⟨_, blocks, rest⟩
      · rw [blocks, rest, ← List.append_assoc, inductionHypothesis]
      · rw [blocks, rest, List.flatten_concat, List.append_nil,
          ← List.append_assoc, inductionHypothesis]

theorem flatten_wholeBlocks_eq (bytes : List UInt8) :
    (wholeBlocks bytes).flatten =
      bytes.take (bytes.length / blockLength * blockLength) := by
  apply List.append_cancel_right
  rw [flatten_wholeBlocks bytes]
  exact (List.take_append_drop _ bytes).symm

theorem wholeBlocks_append (first later : List UInt8) :
    ∃ new, wholeBlocks (first ++ later) = wholeBlocks first ++ new := by
  induction later using List.reverseRecOn with
  | nil => exact ⟨[], by simp⟩
  | append_singleton later byte inductionHypothesis =>
      obtain ⟨new, blocks⟩ := inductionHypothesis
      rw [← List.append_assoc]
      rcases wholeBlocks_concat (first ++ later) byte with
        ⟨_, more, _⟩ | ⟨_, more, _⟩
      · exact ⟨new, more.trans blocks⟩
      · rw [more, blocks, List.append_assoc]
        exact ⟨_, rfl⟩

theorem Intake.feed_leftOver (read more : List UInt8) :
    ∃ new, wholeBlocks (read ++ more) = wholeBlocks read ++ new ∧
      (Intake.block (leftOver read)).feed more =
        (.block (leftOver (read ++ more)), new.map .message) := by
  obtain ⟨new, blocks⟩ := wholeBlocks_append read more
  refine ⟨new, blocks, ?_⟩
  have fed := Intake.feed_append (.block []) read more
  rw [Intake.feed_blocks, Intake.feed_blocks, blocks, List.map_append] at fed
  have parts := Prod.ext_iff.mp fed
  exact Prod.ext parts.1.symm (List.append_cancel_left parts.2.symm)

def blockEvents (bytes : List UInt8) : List Event :=
  (wholeBlocks bytes).map fun block => .received block 0

theorem blockEvents_within (first later : List UInt8) :
    blockEvents first <+: blockEvents (first ++ later) := by
  obtain ⟨new, blocks⟩ := wholeBlocks_append first later
  unfold blockEvents
  rw [blocks, List.map_append]
  exact List.prefix_append ..

/-! ### Turns of the receiving task -/

namespace Link

variable {link : Link} {socket : Socket}

theorem actOn_payloads (link : Link) (socket : Socket) (now : Instant)
    (payloads : List Payload) :
    link.actOn socket now (payloads.map .message) =
      { link := link
        socket := socket
        events := payloads.map fun payload => .received payload now } := by
  induction payloads with
  | nil => rfl
  | cons payload rest inductionHypothesis =>
      rw [List.map_cons, Link.actOn, inductionHypothesis]
      rfl

def readOn (link : Link) (socket : Socket) (read : List UInt8) (most : Nat) :
    Link :=
  { link with intake := .block (leftOver (read ++ socket.inbound.take most)) }

/-- A turn reports the blocks that become whole; at the end of the stream it
drops what is left over. -/
theorem receive_blocks {read : List UInt8}
    (running : link.receiving = .running)
    (intake : link.intake = .block (leftOver read)) (most : Nat)
    (now : Instant) :
    ∃ new,
      wholeBlocks (read ++ socket.inbound.take most) =
        wholeBlocks read ++ new ∧
      link.receive socket most now =
        meetEnd
          { link := link.readOn socket read most
            socket := (socket.take most).2
            events := new.map fun block => .received block now } := by
  obtain ⟨new, blocks, fed⟩ :=
    Intake.feed_leftOver read (socket.inbound.take most)
  refine ⟨new, blocks, ?_⟩
  simp only [Link.receive, running, Socket.take, intake, fed]
  rw [actOn_payloads, readOn, running]

theorem meetEnd_of_reached {step : LinkStep} {ending : StreamEnd}
    (running : step.link.receiving = .running)
    (reached : step.socket.endReached = some ending)
    (closes : ending.fault = .closed) :
    (meetEnd step).link.receiving = .ended ∧
      (meetEnd step).events = step.events ++ [.failed .closed] := by
  unfold meetEnd
  rw [running, reached]
  exact ⟨rfl, congrArg (fun fault => _ ++ [Event.failed fault]) closes⟩

end Link

/-! ### Sockets -/

namespace Net.Socket

/-- Whether two sockets come to the same for a reader to whom every end of the
stream means the same. -/
structure ReadsAs (before after : Socket) : Prop where
  inbound : after.inbound = before.inbound
  ending : after.ending.map StreamEnd.fault =
    before.ending.map StreamEnd.fault

variable {socket : Socket}

theorem readsAs_refl (socket : Socket) : socket.ReadsAs socket := ⟨rfl, rfl⟩

/-- Who writes may be the one to learn of an abort, but not of an end. -/
theorem write_readsAs (closes : socket.Closes) (bytes : List UInt8) :
    socket.ReadsAs (socket.write bytes).2 := by
  unfold write
  split
  · exact socket.readsAs_refl
  · split
    · exact ⟨rfl, rfl⟩
    · exact ⟨rfl, rfl⟩
    · split
      case h_1 error failed =>
          refine ⟨rfl, ?_⟩
          rw [failed]
          exact congrArg some (closes _ failed).symm
      case h_2 => exact socket.readsAs_refl

end Net.Socket

/-! ### What comes from a peer -/

namespace Inflow

def onward (inflow : Inflow) : Incident → Inflow
  | .turn _ .reset => inflow.finish
  | incident => inflow.after incident

def along (inflow : Inflow) (incidents : List Incident) : Inflow :=
  incidents.foldl onward inflow

/-- What there is to report over raw TCP, without the dates: a message for
each whole block, and the end of the stream. -/
def announced (inflow : Inflow) : List Event :=
  blockEvents inflow.bytes ++
    if inflow.finished then [.failed .closed] else []

variable {inflow : Inflow}

theorem arrive_finished (finished : inflow.finished = true)
    (bytes : List UInt8) : inflow.arrive bytes = inflow := by
  rw [arrive, if_pos finished]

theorem finish_finished (finished : inflow.finished = true) :
    inflow.finish = inflow := by
  rw [finish, ← finished]

theorem onward_finished (finished : inflow.finished = true)
    (incident : Incident) : inflow.onward incident = inflow := by
  unfold onward
  split
  · exact finish_finished finished
  · unfold after
    split
    · exact arrive_finished finished _
    · exact finish_finished finished
    · exact finish_finished finished
    · rfl

theorem arrive_bytes (inflow : Inflow) (bytes : List UInt8) :
    inflow.bytes <+: (inflow.arrive bytes).bytes := by
  unfold arrive
  split
  · exact List.prefix_rfl
  · exact List.prefix_append ..

theorem onward_bytes (inflow : Inflow) (incident : Incident) :
    inflow.bytes <+: (inflow.onward incident).bytes := by
  unfold onward
  split
  · exact List.prefix_rfl
  · unfold after
    split
    · exact inflow.arrive_bytes _
    · exact List.prefix_rfl
    · exact List.prefix_rfl
    · exact List.prefix_rfl

theorem along_bytes (inflow : Inflow) (incidents : List Incident) :
    inflow.bytes <+: (inflow.along incidents).bytes := by
  induction incidents generalizing inflow with
  | nil => exact List.prefix_rfl
  | cons incident rest inductionHypothesis =>
      exact (inflow.onward_bytes incident).trans
        (inductionHypothesis (inflow.onward incident))

theorem along_append (inflow : Inflow) (first later : List Incident) :
    inflow.along (first ++ later) = (inflow.along first).along later :=
  List.foldl_append

theorem announced_open (going : inflow.finished = false) :
    inflow.announced = blockEvents inflow.bytes := by
  rw [announced, going]
  exact List.append_nil _

theorem announced_finished (finished : inflow.finished = true) :
    inflow.announced = blockEvents inflow.bytes ++ [.failed .closed] := by
  rw [announced, finished]
  rfl

end Inflow

end LatencyBench

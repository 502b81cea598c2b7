/-
What a stream of frames says to a client.

A client that knows the format and has no limits of its own reads one frame
after the other, as far as they are whole, and puts the messages together
again.  What frames it reads from part of a stream of frames, and what
messages they make, is determined by how many of them are whole.
-/

import LatencyBench.Proofs.WebSocket.Frames
import LatencyBench.WebSocket.Message

namespace LatencyBench.WebSocket

/-- Part of two things in a row is a proper part of the first, or the first
and part of the second. -/
theorem properPart_or_begins {α : Type} {part first later : List α}
    (isPart : part <+: first ++ later) :
    ProperPart part first ∨
      ∃ seen, part = first ++ seen ∧ seen <+: later := by
  by_cases proper : ProperPart part first
  · exact .inl proper
  · have begins : first <+: part := by
      rcases List.prefix_or_prefix_of_prefix isPart
        (List.prefix_append first later) with within | begins
      · by_cases same : part = first
        · exact same ▸ List.prefix_rfl
        · exact absurd ⟨within, same⟩ proper
      · exact begins
    obtain ⟨seen, rfl⟩ := begins
    exact .inr ⟨seen, rfl, (List.prefix_append_right_inj first).mp isPart⟩

/-! ### Reading frames -/

def headerRest (second : UInt8) : Nat :=
  extraLengthBytes (second &&& 0x7F).toNat +
    if second &&& 0x80 != 0 then 4 else 0

/-- The header that some bytes begin with, and the bytes behind it. -/
def Announcement.read? : List UInt8 → Option (Announcement × List UInt8)
  | first :: second :: rest =>
      (Announcement.ofBytes?
        (first :: second :: rest.take (headerRest second))).map
        fun announcement => (announcement, rest.drop (headerRest second))
  | _ => none

def Frame.read? (bytes : List UInt8) : Option (Frame × List UInt8) :=
  match Announcement.read? bytes with
  | none => none
  | some (announcement, rest) =>
      if announcement.length ≤ rest.length then
        some
          (.ofWire announcement.header (rest.take announcement.length),
            rest.drop announcement.length)
      else none

def framesWithin : Nat → List UInt8 → List Frame
  | 0, _ => []
  | most + 1, bytes =>
      match Frame.read? bytes with
      | none => []
      | some (frame, rest) => frame :: framesWithin most rest

/-- The whole frames that some bytes begin with. -/
def framesIn (bytes : List UInt8) : List Frame :=
  framesWithin bytes.length bytes

theorem Announcement.read?_shorter {bytes rest : List UInt8}
    {announcement : Announcement}
    (read : Announcement.read? bytes = some (announcement, rest)) :
    rest.length < bytes.length := by
  match bytes, read with
  | first :: second :: seen, read =>
      obtain ⟨_, _, same⟩ := Option.map_eq_some_iff.mp read
      cases same
      rw [List.length_drop, List.length_cons, List.length_cons]
      omega

theorem Frame.read?_shorter {bytes rest : List UInt8} {frame : Frame}
    (read : Frame.read? bytes = some (frame, rest)) :
    rest.length < bytes.length := by
  unfold Frame.read? at read
  split at read
  case h_1 => cases read
  case h_2 announcement behind header =>
      have shorter := Announcement.read?_shorter header
      split at read
      · cases read
        rw [List.length_drop]
        omega
      · cases read

/-- It does not matter how many frames are asked for if it is enough. -/
theorem framesWithin_enough {bytes : List UInt8} {fewer more : Nat}
    (enough : bytes.length ≤ fewer) (atLeast : bytes.length ≤ more) :
    framesWithin fewer bytes = framesWithin more bytes := by
  induction fewer generalizing bytes more with
  | zero =>
      have nothing : bytes = [] := List.length_eq_zero_iff.mp (by omega)
      rw [nothing]
      cases more <;> rfl
  | succ fewer inductionHypothesis =>
      cases more with
      | zero =>
          have nothing : bytes = [] := List.length_eq_zero_iff.mp (by omega)
          rw [nothing]
          rfl
      | succ more =>
          unfold framesWithin
          cases read : Frame.read? bytes with
          | none => rfl
          | some found =>
              have shorter := Frame.read?_shorter read
              exact congrArg (found.1 :: ·)
                (inductionHypothesis (by omega) (by omega))

theorem framesIn_none {bytes : List UInt8}
    (unread : Frame.read? bytes = none) : framesIn bytes = [] := by
  unfold framesIn
  cases bytes.length with
  | zero => rfl
  | succ length => rw [framesWithin, unread]

theorem framesIn_some {bytes rest : List UInt8} {frame : Frame}
    (read : Frame.read? bytes = some (frame, rest)) :
    framesIn bytes = frame :: framesIn rest := by
  have shorter := Frame.read?_shorter read
  have more : framesWithin (bytes.length + 1) bytes =
      frame :: framesWithin bytes.length rest := by
    rw [framesWithin, read]
  rw [framesIn, framesWithin_enough (Nat.le_refl _) (Nat.le_succ _), more,
    framesWithin_enough (Nat.le_of_lt shorter) (Nat.le_refl _)]
  rfl

/-! ### Reading back what was written -/

section Written

variable {header : FrameHeader} {length : Nat} {frame : Frame}
  {part : List UInt8}

theorem headerRest_eq (header : FrameHeader) (length : Nat) :
    headerRest
        ((if header.mask.isSome then 0x80 else 0) ||| lengthMarker length) =
      header.restLength length := by
  obtain ⟨masked, marker⟩ := secondByte_of header.mask.isSome length
  rw [headerRest, masked, marker, FrameHeader.restLength]

theorem FrameHeader.Writable.read?_encode (writable : header.Writable)
    (fits : length < 2 ^ 64) (rest : List UInt8) :
    Announcement.read? (header.encode length ++ rest) =
      some
        ({ header := header
           length := length }, rest) := by
  have read := writable.ofBytes?_encode fits
  have width := header.length_rest length
  rw [header.encode_eq] at read ⊢
  simp only [List.cons_append, Announcement.read?, headerRest_eq, ← width,
    List.take_left, List.drop_left, read, Option.map_some]

theorem FrameHeader.read?_part (header : FrameHeader) (length : Nat)
    (proper : ProperPart part (header.encode length)) :
    Announcement.read? part = none := by
  have unread := header.ofBytes?_part length proper
  have width := header.length_rest length
  rw [header.encode_eq] at proper
  match part, proper, unread with
  | [], _, _ => rfl
  | [_], _, _ => rfl
  | first :: second :: seen, proper, unread =>
      obtain ⟨sameFirst, onward⟩ := List.cons_prefix_cons.mp proper.isPart
      obtain ⟨sameSecond, shorter⟩ := List.cons_prefix_cons.mp onward
      have within : seen.length ≤ headerRest second := by
        rw [sameSecond, headerRest_eq, ← width]
        exact shorter.length_le
      rw [Announcement.read?, List.take_of_length_le within, unread]
      rfl

structure Frame.Writable (frame : Frame) : Prop where
  header : frame.header.Writable
  fits : frame.payload.length < 2 ^ 64

theorem Frame.Writable.read?_encode (writable : frame.Writable)
    (rest : List UInt8) :
    Frame.read? (frame.encode ++ rest) = some (frame, rest) := by
  have read := writable.header.read?_encode writable.fits
    (frame.wire ++ rest)
  have length := frame.length_wire
  rw [frame.encode_eq, List.append_assoc, Frame.read?, read]
  simp only [← length, List.take_left, List.drop_left, Frame.ofWire_wire,
    List.length_append, Nat.le_add_right, if_true]

theorem Frame.Writable.read?_partway (writable : frame.Writable)
    {seen : List UInt8} (proper : ProperPart seen frame.wire) :
    Frame.read? (frame.header.encode frame.payload.length ++ seen) =
      none := by
  have read := writable.header.read?_encode writable.fits seen
  have shorter : seen.length < frame.payload.length := by
    rw [← frame.length_wire]
    refine Nat.lt_of_le_of_ne proper.isPart.length_le fun same => ?_
    exact proper.isProper (proper.isPart.eq_of_length same)
  rw [Frame.read?, read]
  exact if_neg (Nat.not_le.mpr shorter)

theorem Frame.Writable.read?_part (writable : frame.Writable)
    (proper : ProperPart part frame.encode) : Frame.read? part = none := by
  obtain ⟨isPart, isProper⟩ := proper
  rw [frame.encode_eq] at isPart isProper
  rcases properPart_or_begins isPart with inHeader | ⟨seen, rfl, within⟩
  · rw [Frame.read?, frame.header.read?_part _ inHeader]
  · refine writable.read?_partway ⟨within, ?_⟩
    rintro rfl
    exact isProper rfl

end Written

/-! ### Streams of frames -/

def bytesOfFrames (frames : List Frame) : List UInt8 :=
  frames.flatMap Frame.encode

theorem bytesOfFrames_cons (frame : Frame) (rest : List Frame) :
    bytesOfFrames (frame :: rest) = frame.encode ++ bytesOfFrames rest :=
  List.flatMap_cons

/-- From part of a stream of frames those frames are read that are whole. -/
theorem framesIn_stream {frames : List Frame}
    (writable : ∀ frame ∈ frames, frame.Writable) {bytes : List UInt8}
    (isPart : bytes <+: bytesOfFrames frames) :
    ∃ count ≤ frames.length,
      framesIn bytes = frames.take count ∧
        bytesOfFrames (frames.take count) <+: bytes ∧
        ∀ fewer ≤ frames.length,
          bytesOfFrames (frames.take fewer) <+: bytes → fewer ≤ count := by
  induction frames generalizing bytes with
  | nil =>
      refine ⟨0, Nat.le_refl 0, ?_, List.nil_prefix, fun _ within _ => within⟩
      rw [List.prefix_nil.mp isPart]
      rfl
  | cons frame rest inductionHypothesis =>
      rw [List.forall_mem_cons] at writable
      rw [bytesOfFrames_cons] at isPart
      rcases properPart_or_begins isPart with partway | ⟨seen, rfl, within⟩
      · refine ⟨0, Nat.zero_le _, ?_, List.nil_prefix, ?_⟩
        · exact framesIn_none (writable.1.read?_part partway)
        · intro fewer _ covered
          cases fewer with
          | zero => exact Nat.le_refl 0
          | succ fewer =>
              rw [List.take_succ_cons, bytesOfFrames_cons] at covered
              have longer := (List.prefix_append ..).trans covered
              exact absurd
                (partway.isPart.eq_of_length_le longer.length_le)
                partway.isProper
      · obtain ⟨count, atMost, read, seenWhole, most⟩ :=
          inductionHypothesis writable.2 within
        refine ⟨count + 1, Nat.succ_le_succ atMost, ?_, ?_, ?_⟩
        · rw [framesIn_some (writable.1.read?_encode seen), read]
          rfl
        · rw [List.take_succ_cons, bytesOfFrames_cons,
            List.prefix_append_right_inj]
          exact seenWhole
        · intro fewer bounded covered
          cases fewer with
          | zero => exact Nat.zero_le _
          | succ fewer =>
              rw [List.take_succ_cons, bytesOfFrames_cons,
                List.prefix_append_right_inj] at covered
              have fewerLeft : fewer ≤ count :=
                most fewer (Nat.le_of_succ_le_succ bounded) covered
              exact Nat.succ_le_succ fewerLeft

/-! ### Messages -/

/-- Whether a client may be sent a frame: it is not masked, it uses no
extension, and a control frame is short and not cut in pieces. -/
def Frame.isAllowed (frame : Frame) : Bool :=
  frame.header.mask.isNone && frame.header.reserved == 0 &&
    (!frame.header.opcode.isControl ||
      frame.header.isFinal && decide (frame.payload.length ≤ 125))

/-- What a client makes of frames, behind the part of a message that it has:
the messages that they complete, up to a close frame or a frame that breaks
the rules. -/
def messagesAfter (begun : Option (MessageKind × List UInt8)) :
    List Frame → List (MessageKind × List UInt8)
  | [] => []
  | frame :: rest =>
      if !frame.isAllowed then []
      else
        let message? : Option (MessageKind × List UInt8) :=
          match frame.header.opcode, begun with
          | .text, none => some (.text, frame.payload)
          | .binary, none => some (.binary, frame.payload)
          | .continuation, some (kind, earlier) =>
              some (kind, earlier ++ frame.payload)
          | _, _ => none
        match message? with
        | some message =>
            if !frame.header.isFinal then messagesAfter (some message) rest
            else if message.1 = .text && !Utf8.isValid message.2 then []
            else message :: messagesAfter none rest
        | none =>
            match frame.header.opcode with
            | .ping => messagesAfter begun rest
            | .pong => messagesAfter begun rest
            | _ => []

def messagesIn (bytes : List UInt8) : List (MessageKind × List UInt8) :=
  messagesAfter none (framesIn bytes)

end LatencyBench.WebSocket

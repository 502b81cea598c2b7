/-
What a client says over a WebSocket, and what a receive loop makes of it.

A speech is a number of messages, each cut into fragments with pings and pongs
before any of them; then perhaps a message that is broken off; and in the end
the client says no more for the time being, ends the stream, takes its leave,
or breaks a rule of the protocol.
-/

import LatencyBench.Proofs.WebSocket.Assembling

namespace LatencyBench

namespace WebSocket

/-! ### Signals and fragments -/

structure Signal where
  isPing : Bool
  mask : MaskKey
  payload : List UInt8
  short : payload.length ≤ 125

def Signal.frame (signal : Signal) : Frame :=
  .masked true (if signal.isPing then .ping else .pong) signal.mask
    signal.payload

def Signal.received (signal : Signal) : List Received :=
  if signal.isPing then [.answer (pongBytes signal.payload)] else []

/-- A fragment of a message, and the signals that are sent before it. -/
structure Piece where
  signals : List Signal
  mask : MaskKey
  part : List UInt8
  fits : part.length ≤ maxFrameLength

def Piece.frames (piece : Piece) (isFinal : Bool) (opcode : Opcode) :
    List Frame :=
  piece.signals.map Signal.frame ++
    [.masked isFinal opcode piece.mask piece.part]

def Piece.received (piece : Piece) : List Received :=
  piece.signals.flatMap Signal.received

def bytesOf (frames : List Frame) : List UInt8 :=
  frames.flatMap Frame.encode

def contents (pieces : List Piece) : List UInt8 :=
  pieces.flatMap Piece.part

/-- The frames of fragments that are not the last one of their message.  The
first one tells the kind of the message. -/
def earlierFrames : Opcode → List Piece → List Frame
  | _, [] => []
  | opcode, piece :: rest =>
      piece.frames false opcode ++ earlierFrames .continuation rest

def opcodeAfter (opcode : Opcode) (earlier : List Piece) : Opcode :=
  if earlier.isEmpty then opcode else .continuation

/-! ### Messages -/

structure Message where
  kind : MessageKind
  earlier : List Piece
  last : Piece
  carries : kind.Carries (contents earlier ++ last.part)

namespace Message

def payload (message : Message) : List UInt8 :=
  contents message.earlier ++ message.last.part

def frames (message : Message) : List Frame :=
  earlierFrames message.kind.opcode message.earlier ++
    message.last.frames true
      (opcodeAfter message.kind.opcode message.earlier)

def received (message : Message) : List Received :=
  message.earlier.flatMap Piece.received ++ message.last.received ++
    if message.payload.isEmpty then [] else [.message message.payload]

end Message

/-- A message that is broken off behind some of its fragments. -/
structure Fragment where
  kind : MessageKind
  pieces : List Piece
  some : pieces ≠ []
  begins : kind.Begins (contents pieces)

namespace Fragment

def frames (fragment : Fragment) : List Frame :=
  earlierFrames fragment.kind.opcode fragment.pieces

def received (fragment : Fragment) : List Received :=
  fragment.pieces.flatMap Piece.received

/-- What is held of the message. -/
def held (fragment : Fragment) : Fragments :=
  .holding fragment.kind (contents fragment.pieces)

end Fragment

/-! ### Endings -/

/-- What can have arrived of a frame that is not there yet: less than all of
it, or less than all of its header. -/
inductive Partway : List UInt8 → Prop where
  | frame {bytes : List UInt8} (frame : Frame) (sendable : frame.Sendable)
      (proper : ProperPart bytes frame.encode) : Partway bytes
  | header {bytes : List UInt8} (header : FrameHeader) (length : Nat)
      (proper : ProperPart bytes (header.encode length)) : Partway bytes

/-- What the payload of a valid close frame is: nothing, or a code of two
bytes and a reason in words. -/
inductive CloseWords : List UInt8 → Prop where
  | bare : CloseWords []
  | coded (high low : UInt8) (reason : List UInt8)
      (short : reason.length ≤ 123) (isText : Utf8.isValid reason = true) :
      CloseWords (high :: low :: reason)

/-- The rule that a whole frame breaks, if the loop holds `begun` of a
message.  Before the rules about masked frames come the two about any. -/
inductive FrameBreach (begun : Option Fragments) :
    Frame → Violation → Prop where
  | reservedBits (frame : Frame) (reserved : frame.header.reserved ≠ 0) :
      FrameBreach begun frame .reservedBits
  | unmasked (frame : Frame) (plain : frame.header.reserved = 0)
      (bare : frame.header.mask = none) :
      FrameBreach begun frame .unmasked
  | fragmentedControl (opcode : Opcode) (control : opcode.isControl = true)
      (mask : MaskKey) (payload : List UInt8) :
      FrameBreach begun (.masked false opcode mask payload)
        .fragmentedControl
  | controlTooBig (opcode : Opcode) (control : opcode.isControl = true)
      (mask : MaskKey) (payload : List UInt8) (long : 125 < payload.length) :
      FrameBreach begun (.masked true opcode mask payload) .controlTooBig
  | closeOfOneByte (mask : MaskKey) (byte : UInt8) :
      FrameBreach begun (.masked true .close mask [byte]) .closeOfOneByte
  | closeNotText (mask : MaskKey) (high low : UInt8) (reason : List UInt8)
      (short : reason.length ≤ 123)
      (notText : Utf8.isValid reason = false) :
      FrameBreach begun (.masked true .close mask (high :: low :: reason))
        .notText
  | nothingToContinue (nothing : begun = none) (isFinal : Bool)
      (mask : MaskKey) (part : List UInt8) :
      FrameBreach begun (.masked isFinal .continuation mask part)
        .nothingToContinue
  | unfinished (something : begun.isSome = true) (kind : MessageKind)
      (isFinal : Bool) (mask : MaskKey) (part : List UInt8) :
      FrameBreach begun (.masked isFinal kind.opcode mask part)
        (.unfinished kind)
  | messageTooLong {kind : MessageKind} {soFar : List UInt8}
      {opcode : Opcode} (continues : Continues kind begun soFar opcode)
      (isFinal : Bool) (mask : MaskKey) (part : List UInt8)
      (long : maxMessageLength < (soFar ++ part).length) :
      FrameBreach begun (.masked isFinal opcode mask part)
        (.messageTooLong (soFar ++ part).length)
  | neverText {soFar : List UInt8} {opcode : Opcode}
      (continues : Continues .text begun soFar opcode) (isFinal : Bool)
      (mask : MaskKey) (part : List UInt8)
      (fits : (soFar ++ part).length ≤ maxMessageLength)
      (never : ∀ rest, Utf8.isValid (soFar ++ part ++ rest) = false) :
      FrameBreach begun (.masked isFinal opcode mask part) .notText
  | notText {soFar : List UInt8} {opcode : Opcode}
      (continues : Continues .text begun soFar opcode)
      (mask : MaskKey) (part : List UInt8)
      (fits : (soFar ++ part).length ≤ maxMessageLength)
      (notText : Utf8.isValid (soFar ++ part) = false) :
      FrameBreach begun (.masked true opcode mask part) .notText

/-- How a client breaks a rule: by what a header announces, or by a whole
frame. -/
inductive Breach (begun : Option Fragments) : List UInt8 → Violation → Prop
    where
  | reservedOpcode (header : FrameHeader) (writable : header.Writable)
      (number : UInt8) (isReserved : header.opcode = .reserved number)
      (length : Nat) (counts : length < 2 ^ 64) :
      Breach begun (header.encode length) (.frame (.reservedOpcode number))
  | tooLong (header : FrameHeader) (writable : header.Writable)
      (isKnown : header.opcode.isKnown = true) (length : Nat)
      (counts : length < 2 ^ 64) (long : maxFrameLength < length) :
      Breach begun (header.encode length) (.frame (.tooLong length))
  | frame (frame : Frame) (sendable : frame.Sendable) (violation : Violation)
      (breach : FrameBreach begun frame violation) :
      Breach begun frame.encode violation

/-- How a speech ends: the stream is still open, or over, in the middle of a
frame or between two; or with a close frame or a breach, whatever comes
behind it. -/
inductive Ending (begun : Option Fragments) where
  | stillOpen (rest : List UInt8) (partway : Partway rest)
  | endOfStream (rest : List UInt8) (partway : Partway rest)
  | close (mask : MaskKey) (words : List UInt8) (valid : CloseWords words)
      (following : List UInt8)
  | breach (bytes : List UInt8) (violation : Violation)
      (breach : Breach begun bytes violation) (following : List UInt8)

namespace Ending

variable {begun : Option Fragments}

def bytes : Ending begun → List UInt8
  | .stillOpen rest _ => rest
  | .endOfStream rest _ => rest
  | .close mask words _ following =>
      (Frame.masked true .close mask words).encode ++ following
  | .breach bytes _ _ following => bytes ++ following

/-- Whether an ending leaves the stream open or closes it; a client that has
taken its leave or broken a rule may do either. -/
def Leaves : Ending begun → Bool → Prop
  | .stillOpen .., finished => finished = false
  | .endOfStream .., finished => finished = true
  | _, _ => True

def isSaid : Ending begun → Bool
  | .close .. => true
  | .breach .. => true
  | _ => false

/-- What a receive loop reports at the end. -/
def fault? : Ending begun → Option Fault
  | .stillOpen .. => none
  | .endOfStream .. => some .closed
  | .close .. => some .closed
  | .breach _ violation .. => some (.io violation.message)

end Ending

/-! ### Speeches -/

/-- Everything that a client says. -/
structure Speech where
  messages : List Message
  fragment : Option Fragment
  signals : List Signal
  ending : Ending (fragment.map Fragment.held)

namespace Speech

def frames (speech : Speech) : List Frame :=
  speech.messages.flatMap Message.frames ++
    speech.fragment.elim [] Fragment.frames ++
    speech.signals.map Signal.frame

def bytes (speech : Speech) : List UInt8 :=
  bytesOf speech.frames ++ speech.ending.bytes

def received (speech : Speech) : List Received :=
  speech.messages.flatMap Message.received ++
    speech.fragment.elim [] Fragment.received ++
    speech.signals.flatMap Signal.received

/-- The payloads that a receive loop hands out: of every whole message that is
not empty. -/
def payloads (speech : Speech) : List Payload :=
  (speech.messages.map Message.payload).filter fun payload =>
    !payload.isEmpty

end Speech

/-! ### Frames of a speech -/

variable {begun : Option Fragments} {kind : MessageKind} {opcode : Opcode}
  {soFar : List UInt8} {violation : Violation} {frame : Frame}

theorem sendable_masked (isFinal : Bool) (known : opcode.isKnown = true)
    (mask : MaskKey) {payload : List UInt8}
    (fits : payload.length ≤ maxFrameLength) :
    (Frame.masked isFinal opcode mask payload).Sendable where
  reserved := (by decide : (0 : UInt8) < 8)
  opcode := known
  fits := fits

theorem sendable_control (known : opcode.isKnown = true) (mask : MaskKey)
    {payload : List UInt8} (short : payload.length ≤ 125) :
    (Frame.masked true opcode mask payload).Sendable :=
  sendable_masked true known mask (Nat.le_trans short (by decide))

theorem Continues.known (continues : Continues kind begun soFar opcode) :
    opcode.isKnown = true := by
  cases continues with
  | first => cases kind <;> rfl
  | later _ => rfl

theorem Continues.held (continues : Continues kind begun soFar opcode)
    (later : opcode = .continuation) :
    begun = some (.holding kind soFar) := by
  cases continues with
  | first => cases kind <;> cases later
  | later _ => rfl

theorem opcodeAfter_continuation (pieces : List Piece) :
    opcodeAfter .continuation pieces = .continuation :=
  ite_self _

theorem bytesOf_append (first second : List Frame) :
    bytesOf (first ++ second) = bytesOf first ++ bytesOf second :=
  List.flatMap_append

theorem bytesOf_singleton (frame : Frame) : bytesOf [frame] = frame.encode :=
  List.append_nil _

theorem CloseWords.short {words : List UInt8} (valid : CloseWords words) :
    words.length ≤ 125 := by
  cases valid with
  | bare => exact Nat.zero_le _
  | coded high low reason short _ =>
      simp only [List.length_cons]
      omega

theorem CloseWords.ofPayload {words : List UInt8} (valid : CloseWords words) :
    ∃ note, CloseNote.ofPayload words = .ok note := by
  cases valid with
  | bare => exact ⟨none, rfl⟩
  | coded high low reason _ isText => exact ⟨_, if_pos isText⟩

theorem FrameBreach.take (breach : FrameBreach begun frame violation)
    (known : frame.header.opcode.isKnown = true) :
    ((Assembler.server begun).take frame).2 = .violation violation := by
  cases breach with
  | reservedBits _ reserved =>
      rw [Assembler.take, if_pos reserved]
  | unmasked _ plain bare =>
      rw [Assembler.take, if_neg (by simp [plain])]
      simp only [Assembler.maskViolation?, Assembler.server, bare]
  | fragmentedControl opcode control mask payload =>
      have known : opcode.isKnown = true := known
      rw [Assembler.take_control known control]
      rfl
  | controlTooBig opcode control mask payload long =>
      have known : opcode.isKnown = true := known
      rw [Assembler.take_control known control]
      exact if_pos long
  | closeOfOneByte mask byte =>
      have short : [byte].length ≤ 125 := Nat.le_add_left 1 124
      rw [Assembler.take_close short]
      rfl
  | closeNotText mask high low reason short notText =>
      have words : (high :: low :: reason).length ≤ 125 := by
        simp only [List.length_cons]
        omega
      rw [Assembler.take_close words]
      simp only [CloseNote.ofPayload, notText, Bool.false_eq_true, if_false]
  | nothingToContinue nothing isFinal mask part =>
      rw [nothing]
      rfl
  | unfinished something kind isFinal mask part =>
      obtain ⟨fragments, held⟩ := Option.isSome_iff_exists.mp something
      rw [held]
      cases kind <;> rfl
  | messageTooLong continues isFinal mask part long =>
      exact Assembler.take_refused continues isFinal mask
        (Fragments.extend_tooLong long)
  | neverText continues isFinal mask part fits never =>
      exact Assembler.take_refused continues isFinal mask
        (Fragments.extend_notText continues.begins fits never)
  | @notText soFar _ continues mask part fits notText =>
      -- The last fragment is refused, or the finished message is.
      by_cases begins : ∃ rest, Utf8.isValid (soFar ++ part ++ rest) = true
      · refine Assembler.take_unfinishedText continues mask ?_ notText
        exact
          { fits := fits
            isText := fun _ => begins }
      · have never (rest : List UInt8) :
            Utf8.isValid (soFar ++ part ++ rest) = false :=
          Bool.eq_false_iff.mpr fun valid => begins ⟨rest, valid⟩
        exact Assembler.take_refused continues true mask
          (Fragments.extend_notText continues.begins fits never)

end WebSocket

namespace Intake

open WebSocket

variable {begun : Option Fragments} {kind : MessageKind} {opcode : Opcode}
  {soFar : List UInt8}

/-! ### What a receive loop makes of it -/

theorem feed_signal (begun : Option Fragments) (signal : Signal) :
    (ready begun).feed signal.frame.encode =
      (ready begun, signal.received) := by
  rcases signal with ⟨isPing, mask, payload, short⟩
  cases isPing with
  | true =>
      have sendable := @sendable_control .ping rfl mask _ short
      change (ready begun).feed (Frame.masked true .ping mask payload).encode =
        _
      rw [feed_frame sendable, Assembler.take_ping short]
      rfl
  | false =>
      have sendable := @sendable_control .pong rfl mask _ short
      change (ready begun).feed (Frame.masked true .pong mask payload).encode =
        _
      rw [feed_frame sendable, Assembler.take_pong short]
      rfl

theorem feed_signals (begun : Option Fragments) (signals : List Signal) :
    (ready begun).feed (bytesOf (signals.map Signal.frame)) =
      (ready begun, signals.flatMap Signal.received) := by
  induction signals with
  | nil => rfl
  | cons signal rest inductionHypothesis =>
      change (ready begun).feed
        (signal.frame.encode ++ bytesOf (rest.map Signal.frame)) = _
      rw [feed_append, feed_signal]
      simp only [inductionHypothesis]
      rfl

theorem feed_part (continues : Continues kind begun soFar opcode)
    (piece : Piece) (begins : kind.Begins (soFar ++ piece.part)) :
    (ready begun).feed (bytesOf (piece.frames false opcode)) =
      (ready (some (.holding kind (soFar ++ piece.part))),
        piece.received) := by
  have sendable := sendable_masked false continues.known piece.mask piece.fits
  rw [Piece.frames, bytesOf_append, bytesOf_singleton, feed_append,
    feed_signals]
  dsimp only
  rw [feed_frame sendable, Assembler.take_part continues piece.mask begins]
  simp only [ofDelivery, List.append_nil]
  rfl

theorem feed_last (continues : Continues kind begun soFar opcode)
    (piece : Piece) (carries : kind.Carries (soFar ++ piece.part)) :
    (ready begun).feed (bytesOf (piece.frames true opcode)) =
      (ready none,
        piece.received ++
          if (soFar ++ piece.part).isEmpty then []
          else [.message (soFar ++ piece.part)]) := by
  have sendable := sendable_masked true continues.known piece.mask piece.fits
  rw [Piece.frames, bytesOf_append, bytesOf_singleton, feed_append,
    feed_signals]
  dsimp only
  rw [feed_frame sendable, Assembler.take_last continues piece.mask carries]
  rfl

/-- Fragments before the last one are kept in order. -/
theorem feed_earlier (continues : Continues kind begun soFar opcode)
    (pieces : List Piece) (begins : kind.Begins (soFar ++ contents pieces)) :
    ∃ next, Continues kind next (soFar ++ contents pieces)
        (opcodeAfter opcode pieces) ∧
      (ready begun).feed (bytesOf (earlierFrames opcode pieces)) =
        (ready next, pieces.flatMap Piece.received) := by
  -- After the first fragment the loop holds what has come in so far, and
  -- every other one is a continuation.
  induction pieces generalizing begun soFar opcode with
  | nil =>
      refine ⟨begun, ?_, rfl⟩
      rw [contents, List.flatMap_nil, List.append_nil]
      exact continues
  | cons piece rest inductionHypothesis =>
      have whole : soFar ++ contents (piece :: rest) =
          soFar ++ piece.part ++ contents rest :=
        (List.append_assoc ..).symm
      rw [whole] at begins ⊢
      obtain ⟨next, onward, fed⟩ :=
        inductionHypothesis (.later begins.earlier) begins
      rw [opcodeAfter_continuation] at onward
      refine ⟨next, onward, ?_⟩
      rw [earlierFrames, bytesOf_append, feed_append,
        feed_part continues piece begins.earlier]
      simp only [fed]
      rfl

theorem feed_message (message : Message) :
    (ready none).feed (bytesOf message.frames) =
      (ready none, message.received) := by
  obtain ⟨next, continues, fed⟩ := feed_earlier .first message.earlier
    message.carries.begins.earlier
  rw [Message.frames, bytesOf_append, feed_append, fed]
  dsimp only
  rw [feed_last continues message.last message.carries]
  simp only [Message.received, List.append_assoc]
  rfl

theorem feed_messages (messages : List Message) :
    (ready none).feed (bytesOf (messages.flatMap Message.frames)) =
      (ready none, messages.flatMap Message.received) := by
  induction messages with
  | nil => rfl
  | cons message rest inductionHypothesis =>
      rw [List.flatMap_cons, bytesOf_append, feed_append, feed_message]
      simp only [inductionHypothesis]
      rfl

theorem feed_fragment (fragment : Fragment) :
    (ready none).feed (bytesOf fragment.frames) =
      (ready (some fragment.held), fragment.received) := by
  obtain ⟨next, continues, fed⟩ := feed_earlier .first fragment.pieces
    fragment.begins
  have later : opcodeAfter fragment.kind.opcode fragment.pieces =
      .continuation :=
    if_neg (by simp [fragment.some])
  rw [Fragment.frames, fed, continues.held later]
  rfl

theorem feed_partway (begun : Option Fragments) {rest : List UInt8}
    (partway : Partway rest) : ((ready begun).feed rest).2 = [] := by
  cases partway with
  | frame frame sendable proper =>
      obtain ⟨between, passes⟩ :=
        (FrameDecoder.completes_frame sendable).ofPart proper
      rw [ready, feed_passes passes]
  | header header length proper =>
      rw [ready, feed_passes (FrameDecoder.passes_header header length proper)]

theorem feed_close (begun : Option Fragments) (mask : MaskKey)
    {words : List UInt8} (valid : CloseWords words) :
    ∃ answer, (ready begun).feed
        (Frame.masked true .close mask words).encode =
      (.over, [.farewell answer]) := by
  obtain ⟨note, said⟩ := valid.ofPayload
  have sendable := @sendable_control .close rfl mask _ valid.short
  refine ⟨closeBytes (CloseNote.answer note), ?_⟩
  rw [feed_frame sendable, Assembler.take_close valid.short, said]
  rfl

theorem feed_breach {bytes : List UInt8} {violation : Violation}
    (breach : Breach begun bytes violation) :
    (ready begun).feed bytes =
      (.over, [.fault (.io violation.message)]) := by
  cases breach with
  | reservedOpcode header writable number isReserved length counts =>
      apply feed_header writable counts
      rw [Announcement.error?, isReserved]
  | tooLong header writable isKnown length counts long =>
      apply feed_header writable counts
      rw [announcement_error_known isKnown]
      exact if_pos long
  | frame frame sendable violation breach =>
      rw [feed_frame sendable, breach.take sendable.opcode]
      rfl

theorem feed_frames (speech : Speech) :
    (ready none).feed (bytesOf speech.frames) =
      (ready (speech.fragment.map Fragment.held), speech.received) := by
  rw [Speech.frames, bytesOf_append, bytesOf_append, feed_append,
    feed_append, feed_messages, Speech.received]
  cases speech.fragment with
  | none =>
      have nothing : (ready none).feed (bytesOf []) = (ready none, []) := rfl
      simp only [Option.elim_none, Option.map_none, nothing, feed_signals]
  | some fragment =>
      simp only [Option.elim_some, Option.map_some, feed_fragment,
        feed_signals]

end Intake

end LatencyBench

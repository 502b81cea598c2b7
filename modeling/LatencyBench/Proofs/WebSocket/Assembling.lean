/-
What a receive loop makes of whole frames.

Between two frames it stands at the start of the next one, and holds at most a
message that has begun.  A frame that goes on with the message adds its part;
the last one hands the message out, and a ping is answered without touching
what is held.
-/

import LatencyBench.Connection.Intake
import LatencyBench.Proofs.Text.Utf8
import LatencyBench.Proofs.WebSocket.Frames

namespace LatencyBench

namespace WebSocket

/-! ### Beginnings of messages -/

/-- Whether some bytes can be what a message of a kind begins with. -/
structure MessageKind.Begins (kind : MessageKind) (bytes : List UInt8) :
    Prop where
  fits : bytes.length ≤ maxMessageLength
  isText : kind = .text → ∃ rest, Utf8.isValid (bytes ++ rest) = true

/-- Whether some bytes can be a whole message of a kind. -/
structure MessageKind.Carries (kind : MessageKind) (bytes : List UInt8) :
    Prop where
  fits : bytes.length ≤ maxMessageLength
  isText : kind = .text → Utf8.isValid bytes = true

variable {kind : MessageKind} {soFar part bytes : List UInt8}

theorem MessageKind.Carries.begins (carries : kind.Carries bytes) :
    kind.Begins bytes where
  fits := carries.fits
  isText text := ⟨[], by rw [List.append_nil]; exact carries.isText text⟩

theorem MessageKind.Begins.earlier (begins : kind.Begins (soFar ++ part)) :
    kind.Begins soFar where
  fits := by
    have fits := begins.fits
    rw [List.length_append] at fits
    omega
  isText text := by
    obtain ⟨rest, valid⟩ := begins.isText text
    exact ⟨part ++ rest, by rwa [← List.append_assoc]⟩

theorem MessageKind.begins_nil (kind : MessageKind) : kind.Begins [] where
  fits := Nat.zero_le _
  isText _ := ⟨[], rfl⟩

/-! ### Fragments -/

namespace Fragments

def holding (kind : MessageKind) (bytes : List UInt8) : Fragments :=
  { kind := kind
    payload := bytes
    utf8 :=
      match kind with
      | .binary => .between
      | .text => (Utf8.Reader.between.scan bytes).getD .between }

theorem holding_nil (kind : MessageKind) : holding kind [] = .empty kind := by
  cases kind <;> rfl

theorem scan_holding (begins : kind.Begins soFar) (isText : kind = .text) :
    (holding kind soFar).utf8.scan part =
      Utf8.Reader.between.scan (soFar ++ part) := by
  obtain ⟨reader, read⟩ := Utf8.begins_text_iff.mp (begins.isText isText)
  rw [isText, Utf8.Reader.scan_append]
  simp only [holding, read, Option.getD_some, Option.bind_some]

theorem extend_text
    (fits : soFar.length + part.length ≤ maxMessageLength) :
    (holding .text soFar).extend part =
      match (holding .text soFar).utf8.scan part with
      | none => .error .notText
      | some utf8 =>
          .ok
            { kind := .text
              payload := soFar ++ part
              utf8 := utf8 } :=
  if_neg (Nat.not_lt.mpr fits)

theorem extend_holding (begins : kind.Begins (soFar ++ part)) :
    (holding kind soFar).extend part = .ok (holding kind (soFar ++ part)) := by
  have fits := begins.fits
  rw [List.length_append] at fits
  cases kind with
  | binary => exact if_neg (Nat.not_lt.mpr fits)
  | text =>
      obtain ⟨reader, read⟩ := Utf8.begins_text_iff.mp (begins.isText rfl)
      rw [extend_text fits, scan_holding begins.earlier rfl, read]
      simp only [holding, read, Option.getD_some]

theorem extend_tooLong (long : maxMessageLength < (soFar ++ part).length) :
    (holding kind soFar).extend part =
      .error (.messageTooLong (soFar ++ part).length) := by
  rw [List.length_append] at long ⊢
  exact if_pos long

theorem extend_notText (begins : MessageKind.text.Begins soFar)
    (fits : (soFar ++ part).length ≤ maxMessageLength)
    (never : ∀ rest, Utf8.isValid (soFar ++ part ++ rest) = false) :
    (holding .text soFar).extend part = .error .notText := by
  rw [List.length_append] at fits
  rw [extend_text fits, scan_holding begins rfl,
    Utf8.scan_eq_none_iff.mpr never]

theorem complete_holding (carries : kind.Carries bytes) :
    (holding kind bytes).complete = .message kind bytes := by
  apply if_pos
  cases kind with
  | binary => rfl
  | text =>
      have read := Utf8.isValid_iff.mp (carries.isText rfl)
      simp only [holding, read, Option.getD_some]

theorem complete_notText (begins : MessageKind.text.Begins bytes)
    (broken : Utf8.isValid bytes = false) :
    (holding .text bytes).complete = .violation .notText := by
  apply if_neg
  intro between
  obtain ⟨reader, read⟩ := Utf8.begins_text_iff.mp (begins.isText rfl)
  simp only [holding, read, Option.getD_some] at between
  rw [between] at read
  rw [Utf8.isValid_iff.mpr read] at broken
  cases broken

end Fragments

/-! ### Frames that go on with a message -/

def Frame.masked (isFinal : Bool) (opcode : Opcode) (mask : MaskKey)
    (payload : List UInt8) : Frame :=
  { header :=
      { isFinal := isFinal
        reserved := 0
        opcode := opcode
        mask := some mask }
    payload := payload }

/-- Which kind of frame goes on with a message of which something has come
in: at first one of the message's own kind, and then a continuation. -/
inductive Continues (kind : MessageKind) :
    Option Fragments → List UInt8 → Opcode → Prop where
  | first : Continues kind none [] kind.opcode
  | later {soFar : List UInt8} (begins : kind.Begins soFar) :
      Continues kind (some (.holding kind soFar)) soFar .continuation

theorem Continues.begins {begun : Option Fragments} {opcode : Opcode}
    (continues : Continues kind begun soFar opcode) : kind.Begins soFar := by
  cases continues with
  | first => exact kind.begins_nil
  | later begins => exact begins

namespace Assembler

def server (begun : Option Fragments) : Assembler :=
  { role := .server
    begun := begun }

variable {begun : Option Fragments} {opcode : Opcode}

theorem take_fragment (continues : Continues kind begun soFar opcode)
    (isFinal : Bool) (mask : MaskKey) (part : List UInt8) :
    (server begun).take (.masked isFinal opcode mask part) =
      (server begun).add (.holding kind soFar)
        (.masked isFinal opcode mask part) := by
  cases continues with
  | first =>
      rw [Fragments.holding_nil]
      cases kind <;> rfl
  | later _ => rfl

theorem take_part (continues : Continues kind begun soFar opcode)
    (mask : MaskKey) (begins : kind.Begins (soFar ++ part)) :
    (server begun).take (.masked false opcode mask part) =
      (server (some (.holding kind (soFar ++ part))), .nothing) := by
  rw [take_fragment continues, add]
  simp only [Frame.masked, Fragments.extend_holding begins]
  rfl

theorem take_last (continues : Continues kind begun soFar opcode)
    (mask : MaskKey) (carries : kind.Carries (soFar ++ part)) :
    (server begun).take (.masked true opcode mask part) =
      (server none, .message kind (soFar ++ part)) := by
  rw [take_fragment continues, add]
  simp only [Frame.masked, Fragments.extend_holding carries.begins,
    Fragments.complete_holding carries]
  rfl

theorem take_whole (carries : kind.Carries bytes) :
    (start .client).take (.whole kind.opcode none bytes) =
      (start .client, .message kind bytes) := by
  have added : (start .client).take (.whole kind.opcode none bytes) =
      (start .client).add (.holding kind [])
        (.whole kind.opcode none bytes) := by
    rw [Fragments.holding_nil]
    cases kind <;> rfl
  have begins : kind.Begins ([] ++ bytes) := carries.begins
  have whole := Fragments.extend_holding begins
  rw [List.nil_append] at whole
  rw [added, add]
  simp only [Frame.whole, whole, Fragments.complete_holding carries]
  rfl

theorem take_control (known : opcode.isKnown = true)
    (isControl : opcode.isControl = true) (isFinal : Bool) (mask : MaskKey)
    (payload : List UInt8) :
    (server begun).take (.masked isFinal opcode mask payload) =
      (server begun, control opcode (.masked isFinal opcode mask payload)) := by
  cases opcode with
  | close => rfl
  | ping => rfl
  | pong => rfl
  | reserved number => cases known
  | _ => cases isControl

section Control

variable {payload : List UInt8} (short : payload.length ≤ 125)

include short

theorem control_short (opcode : Opcode) (mask : MaskKey) :
    control opcode (.masked true opcode mask payload) =
      match opcode with
      | .ping => .ping payload
      | .pong => .pong payload
      | _ =>
          match CloseNote.ofPayload payload with
          | .ok note => .close (CloseNote.answer note)
          | .error violation => .violation violation :=
  if_neg (Nat.not_lt.mpr short)

theorem take_ping (begun : Option Fragments) (mask : MaskKey) :
    (server begun).take (.masked true .ping mask payload) =
      (server begun, .ping payload) := by
  rw [take_control rfl rfl, control_short short]

theorem take_pong (begun : Option Fragments) (mask : MaskKey) :
    (server begun).take (.masked true .pong mask payload) =
      (server begun, .pong payload) := by
  rw [take_control rfl rfl, control_short short]

theorem take_close (begun : Option Fragments) (mask : MaskKey) :
    (server begun).take (.masked true .close mask payload) =
      (server begun,
        match CloseNote.ofPayload payload with
        | .ok note => .close (CloseNote.answer note)
        | .error violation => .violation violation) := by
  rw [take_control rfl rfl, control_short short]

end Control

/-- What is broken by a fragment that cannot be added. -/
theorem take_refused (continues : Continues kind begun soFar opcode)
    (isFinal : Bool) (mask : MaskKey) {violation : Violation}
    (refused : (Fragments.holding kind soFar).extend part =
      .error violation) :
    ((server begun).take (.masked isFinal opcode mask part)).2 =
      .violation violation := by
  rw [take_fragment continues, add]
  simp only [Frame.masked, refused]

theorem take_unfinishedText (continues : Continues .text begun soFar opcode)
    (mask : MaskKey) (begins : MessageKind.text.Begins (soFar ++ part))
    (notText : Utf8.isValid (soFar ++ part) = false) :
    ((server begun).take (.masked true opcode mask part)).2 =
      .violation .notText := by
  rw [take_fragment continues, add]
  simp only [Frame.masked, Fragments.extend_holding begins,
    Fragments.complete_notText begins notText]
  rfl

end Assembler

end WebSocket

/-! ### Feeding whole frames -/

namespace Intake

open WebSocket

def ready (begun : Option Fragments) : Intake :=
  .frames
    { decoder := .start
      assembler := .server begun }

variable {begun : Option Fragments} {assembler : Assembler}
  {decoder last : FrameDecoder} {bytes : List UInt8} {frame : Frame}

theorem start_webSocket : start .webSocket = ready none := rfl

theorem feed_append (intake : Intake) (first second : List UInt8) :
    intake.feed (first ++ second) =
      (((intake.feed first).1.feed second).1,
        (intake.feed first).2 ++ ((intake.feed first).1.feed second).2) := by
  induction first generalizing intake with
  | nil => rfl
  | cons byte rest inductionHypothesis =>
      simp only [List.cons_append, feed, inductionHypothesis,
        List.append_assoc]

theorem feed_passes (passes : decoder.Passes bytes last) :
    (Intake.frames
      { decoder := decoder
        assembler := assembler }).feed bytes =
      (.frames
        { decoder := last
          assembler := assembler }, []) := by
  induction passes with
  | nothing => rfl
  | byte taken _ inductionHypothesis =>
      simp only [feed, step, Receiver.step, taken, ofDelivery,
        inductionHypothesis, List.append_nil]

/-- A whole frame has the effect that the assembler gives it. -/
theorem feed_frame (sendable : frame.Sendable) :
    (ready begun).feed frame.encode =
      ofDelivery
        { decoder := .start
          assembler := ((Assembler.server begun).take frame).1 }
        ((Assembler.server begun).take frame).2 := by
  obtain ⟨before, byte, between, whole, passes, taken⟩ :=
    FrameDecoder.completes_frame sendable
  rw [whole, feed_append, ready, feed_passes passes]
  simp only [feed, step, Receiver.step, taken, List.nil_append,
    List.append_nil]

/-- A header that breaks a rule ends the loop. -/
theorem feed_header {header : FrameHeader} (writable : header.Writable)
    {length : Nat} (fits : length < 2 ^ 64) {error : FrameError}
    (found : Announcement.error?
      { header := header
        length := length } = some error) :
    (ready begun).feed (header.encode length) =
      (.over, [.fault (.io (Violation.frame error).message)]) := by
  obtain ⟨before, byte, between, whole, passes, taken⟩ :=
    FrameDecoder.completes_header writable fits
  simp only [FrameDecoder.enter, found] at taken
  rw [whole, feed_append, ready, feed_passes passes]
  simp only [feed, step, Receiver.step, taken, ofDelivery,
    List.nil_append, List.append_nil]

end Intake

end LatencyBench

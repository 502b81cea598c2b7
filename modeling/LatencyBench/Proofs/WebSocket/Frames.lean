/-
Frames and the decoder that reads them back.

A header is known when its last byte is there and not before, and so is a
frame.  From the start of a frame the decoder therefore passes over all bytes
but the last without a word, and with the last it hands out the frame and is
at the start of the next one.
-/

import LatencyBench.Proofs.Loop.Repetition
import LatencyBench.WebSocket.FrameDecoder
import Mathlib.Algebra.Group.Nat.Defs
import Mathlib.Data.List.Induction

namespace LatencyBench.WebSocket

/-! ### Numbers in bytes -/

@[simp] theorem length_bigEndian (width number : Nat) :
    (bigEndian width number).length = width := by
  induction width generalizing number with
  | zero => rfl
  | succ width inductionHypothesis =>
      rw [bigEndian, List.length_append, inductionHypothesis]
      rfl

theorem ofBigEndian_concat (bytes : List UInt8) (byte : UInt8) :
    ofBigEndian (bytes ++ [byte]) = ofBigEndian bytes * 256 + byte.toNat :=
  List.foldl_append

theorem ofBigEndian_bigEndian (width : Nat) {number : Nat}
    (fits : number < 256 ^ width) :
    ofBigEndian (bigEndian width number) = number := by
  induction width generalizing number with
  | zero =>
      have nothing : number = 0 := by omega
      rw [nothing]
      rfl
  | succ width inductionHypothesis =>
      have fewer : number / 256 < 256 ^ width := by
        rw [Nat.pow_succ] at fits
        exact Nat.div_lt_of_lt_mul (by rwa [Nat.mul_comm] at fits)
      rw [bigEndian, ofBigEndian_concat, inductionHypothesis fewer,
        Nat.toUInt8, UInt8.toNat_ofNat']
      omega

/-! ### The two first bytes -/

theorem firstByte_parts : ∀ (isFinal : Bool) (reserved : Fin 8)
    (number : Fin 16),
    let byte : UInt8 :=
      (if isFinal then (0x80 : UInt8) else 0) |||
        (UInt8.ofNat reserved <<< 4) ||| UInt8.ofNat number
    (byte &&& 0x80 != 0) = isFinal ∧
      (byte >>> 4) &&& 0x07 = UInt8.ofNat reserved ∧
      byte &&& 0x0F = UInt8.ofNat number := by
  decide +kernel

theorem secondByte_parts : ∀ (masked : Bool) (marker : Fin 128),
    let byte : UInt8 :=
      (if masked then (0x80 : UInt8) else 0) ||| UInt8.ofNat marker
    (byte &&& 0x80 != 0) = masked ∧ (byte &&& 0x7F).toNat = marker := by
  decide +kernel

/-- Whether a header can be written: its numbers fit into their bits, and its
kind is the one that is read from its number. -/
structure FrameHeader.Writable (header : FrameHeader) : Prop where
  reserved : header.reserved < 8
  number : header.opcode.number < 16
  opcode : .ofNumber header.opcode.number = header.opcode

theorem FrameHeader.Writable.firstByte {header : FrameHeader}
    (writable : header.Writable) :
    (header.firstByte &&& 0x80 != 0) = header.isFinal ∧
      (header.firstByte >>> 4) &&& 0x07 = header.reserved ∧
      Opcode.ofNumber (header.firstByte &&& 0x0F) = header.opcode := by
  have parts := firstByte_parts header.isFinal
    ⟨header.reserved.toNat, writable.reserved⟩
    ⟨header.opcode.number.toNat, writable.number⟩
  simp only [UInt8.ofNat_toNat] at parts
  refine ⟨parts.1, parts.2.1, ?_⟩
  have number := parts.2.2
  unfold FrameHeader.firstByte
  rw [number]
  exact writable.opcode

theorem lengthMarker_toNat (length : Nat) :
    (lengthMarker length).toNat =
      if length < 126 then length else if length < 65536 then 126 else 127 := by
  unfold lengthMarker
  split
  · rw [Nat.toUInt8, UInt8.toNat_ofNat']
    omega
  · split <;> rfl

theorem secondByte_of (masked : Bool) (length : Nat) :
    let byte : UInt8 := (if masked then 0x80 else 0) ||| lengthMarker length
    (byte &&& 0x80 != 0) = masked ∧
      (byte &&& 0x7F).toNat = (lengthMarker length).toNat := by
  have small : (lengthMarker length).toNat < 128 := by
    rw [lengthMarker_toNat]
    split
    · omega
    · split <;> omega
  have parts := secondByte_parts masked ⟨(lengthMarker length).toNat, small⟩
  simp only [UInt8.ofNat_toNat] at parts
  exact parts

/-! ### Headers -/

def FrameHeader.keyBytes (header : FrameHeader) : List UInt8 :=
  match header.mask with
  | none => []
  | some key => key.bytes

/-- The length of what follows the first two bytes of a header. -/
def FrameHeader.restLength (header : FrameHeader) (length : Nat) : Nat :=
  extraLengthBytes (lengthMarker length).toNat +
    if header.mask.isSome then 4 else 0

theorem FrameHeader.encode_eq (header : FrameHeader) (length : Nat) :
    header.encode length =
      header.firstByte ::
        ((if header.mask.isSome then 0x80 else 0) ||| lengthMarker length) ::
          (lengthBytes length ++ header.keyBytes) := by
  unfold FrameHeader.encode FrameHeader.keyBytes
  cases header.mask <;> rfl

theorem length_lengthBytes (length : Nat) :
    (lengthBytes length).length =
      extraLengthBytes (lengthMarker length).toNat := by
  rw [lengthMarker_toNat]
  unfold lengthBytes extraLengthBytes
  split
  · rw [if_neg (by omega), if_neg (by omega)]
    rfl
  · split
    · rw [if_pos rfl, length_bigEndian]
    · rw [if_neg (by decide), if_pos rfl, length_bigEndian]

theorem FrameHeader.length_rest (header : FrameHeader) (length : Nat) :
    (lengthBytes length ++ header.keyBytes).length =
      header.restLength length := by
  rw [List.length_append, length_lengthBytes, restLength, keyBytes]
  cases header.mask <;> rfl

theorem length_of_bytes {length : Nat} (fits : length < 2 ^ 64) :
    (if extraLengthBytes (lengthMarker length).toNat = 0 then
        (lengthMarker length).toNat
      else ofBigEndian (lengthBytes length)) = length := by
  rw [← length_lengthBytes, lengthMarker_toNat]
  unfold lengthBytes
  split
  · exact if_pos rfl
  · split
    · rw [if_neg (by rw [length_bigEndian]; decide)]
      exact ofBigEndian_bigEndian 2 (by omega)
    · rw [if_neg (by rw [length_bigEndian]; decide)]
      exact ofBigEndian_bigEndian 8 (by omega)

theorem maskKey_of_keyBytes (header : FrameHeader) :
    MaskKey.ofBytes? header.keyBytes = header.mask := by
  unfold FrameHeader.keyBytes
  cases header.mask <;> rfl

theorem FrameHeader.Writable.ofBytes?_encode {header : FrameHeader}
    (writable : header.Writable) {length : Nat} (fits : length < 2 ^ 64) :
    Announcement.ofBytes? (header.encode length) =
      some
        { header := header
          length := length } := by
  obtain ⟨isFinal, reserved, opcode⟩ := writable.firstByte
  obtain ⟨masked, marker⟩ := secondByte_of header.mask.isSome length
  have rest := header.length_rest length
  rw [FrameHeader.restLength] at rest
  have extra := length_lengthBytes length
  have given := length_of_bytes fits
  rw [header.encode_eq]
  simp only [Announcement.ofBytes?, masked, marker, isFinal, reserved,
    opcode]
  rw [if_pos rest, ← extra, List.drop_left, List.take_left,
    maskKey_of_keyBytes, extra, given]

theorem FrameHeader.ofBytes?_part (header : FrameHeader) (length : Nat)
    {part : List UInt8} (proper : ProperPart part (header.encode length)) :
    Announcement.ofBytes? part = none := by
  obtain ⟨masked, marker⟩ := secondByte_of header.mask.isSome length
  have rest := header.length_rest length
  rw [header.encode_eq] at proper
  match part, proper with
  | [], _ => rfl
  | [_], _ => rfl
  | first :: second :: seen, proper =>
      obtain ⟨sameFirst, onward⟩ := List.cons_prefix_cons.mp proper.isPart
      obtain ⟨sameSecond, shorter⟩ := List.cons_prefix_cons.mp onward
      subst sameFirst sameSecond
      have fewer : seen.length < header.restLength length := by
        rw [← rest]
        refine Nat.lt_of_le_of_ne shorter.length_le fun same => ?_
        exact proper.isProper (by rw [shorter.eq_of_length same])
      simp only [Announcement.ofBytes?, masked, marker]
      exact if_neg (Nat.ne_of_lt fewer)

/-! ### Passing over bytes -/

namespace FrameDecoder

/-- Whether a decoder passes over some bytes that complete nothing, and where
it stands then. -/
inductive Passes : FrameDecoder → List UInt8 → FrameDecoder → Prop where
  | nothing (decoder : FrameDecoder) : Passes decoder [] decoder
  | byte {decoder next last : FrameDecoder} {byte : UInt8}
      {rest : List UInt8} (step : decoder.step byte = (next, .nothing))
      (onward : Passes next rest last) : Passes decoder (byte :: rest) last

variable {decoder next last : FrameDecoder} {first second part : List UInt8}

theorem Passes.append (there : Passes decoder first next)
    (onward : Passes next second last) :
    Passes decoder (first ++ second) last := by
  induction there with
  | nothing _ => exact onward
  | byte step _ inductionHypothesis =>
      exact .byte step (inductionHypothesis onward)

theorem Passes.concat (there : Passes decoder first next) {byte : UInt8}
    (step : next.step byte = (last, .nothing)) :
    Passes decoder (first ++ [byte]) last :=
  there.append (.byte step (.nothing last))

/-- What is passed over as a whole is passed over in part. -/
theorem Passes.within (passes : Passes decoder first next)
    (isPart : part <+: first) : ∃ between, Passes decoder part between := by
  induction passes generalizing part with
  | nothing decoder =>
      rw [List.prefix_nil.mp isPart]
      exact ⟨decoder, .nothing decoder⟩
  | @byte decoder _ _ byte rest step _ inductionHypothesis =>
      cases part with
      | nil => exact ⟨decoder, .nothing decoder⟩
      | cons head tail =>
          obtain ⟨same, shorter⟩ := List.cons_prefix_cons.mp isPart
          subst same
          obtain ⟨between, onward⟩ := inductionHypothesis shorter
          exact ⟨between, .byte step onward⟩

theorem passes_header (header : FrameHeader) (length : Nat)
    (proper : ProperPart part (header.encode length)) :
    Passes start part (.inHeader part) := by
  induction part using List.reverseRecOn with
  | nil => exact .nothing start
  | append_singleton seen byte inductionHypothesis =>
      have shorter : ProperPart seen (header.encode length) := by
        refine ⟨(List.prefix_append seen [byte]).trans proper.isPart, ?_⟩
        rintro rfl
        have longer := proper.isPart.length_le
        rw [List.length_append, List.length_singleton] at longer
        omega
      have unread := header.ofBytes?_part length proper
      exact (inductionHypothesis shorter).concat (by simp [step, unread])

theorem passes_payload (header : FrameHeader) (found : Array UInt8)
    (missing : Nat) (bytes : List UInt8) :
    Passes (.inPayload header found (missing + bytes.length)) bytes
      (.inPayload header (found ++ bytes) missing) := by
  induction bytes generalizing found with
  | nil =>
      rw [Array.appendList_nil]
      exact .nothing _
  | cons byte rest inductionHypothesis =>
      refine .byte rfl ?_
      rw [Array.appendList_cons]
      exact inductionHypothesis (found.push byte)

/-! ### Completing -/

/-- Whether some bytes complete something with the last of them, and nothing
before. -/
def Completes (decoder : FrameDecoder) (bytes : List UInt8)
    (last : FrameDecoder) (decoded : Decoded) : Prop :=
  ∃ before byte between, bytes = before ++ [byte] ∧
    Passes decoder before between ∧ between.step byte = (last, decoded)

theorem Completes.passes
    (completes : Completes decoder first next .nothing) :
    Passes decoder first next := by
  obtain ⟨before, byte, between, rfl, passes, step⟩ := completes
  exact passes.concat step

theorem Passes.completes {decoded : Decoded}
    (there : Passes decoder first next)
    (completes : Completes next second last decoded) :
    Completes decoder (first ++ second) last decoded := by
  obtain ⟨before, byte, between, rfl, passes, step⟩ := completes
  exact ⟨first ++ before, byte, between, (List.append_assoc ..).symm,
    there.append passes, step⟩

/-- A proper part of what completes something is passed over. -/
theorem Completes.ofPart {decoded : Decoded}
    (completes : Completes decoder first next decoded)
    (proper : ProperPart part first) :
    ∃ between, Passes decoder part between := by
  obtain ⟨before, byte, between, rfl, passes, _⟩ := completes
  have shorter := proper.dropLast
  rw [List.dropLast_concat] at shorter
  exact passes.within shorter

theorem completes_header {header : FrameHeader} (writable : header.Writable)
    {length : Nat} (fits : length < 2 ^ 64) :
    Completes start (header.encode length)
      (enter
        { header := header
          length := length }).1
      (enter
        { header := header
          length := length }).2 := by
  have some : header.encode length ≠ [] := by
    rw [header.encode_eq]
    exact List.cons_ne_nil _ _
  have whole := List.dropLast_concat_getLast some
  refine ⟨(header.encode length).dropLast, (header.encode length).getLast some,
    _, whole.symm, passes_header header length (properPart_dropLast some), ?_⟩
  simp only [step, whole, writable.ofBytes?_encode fits]

end FrameDecoder

/-! ### Frames -/

def Opcode.isKnown : Opcode → Bool
  | .reserved _ => false
  | _ => true

/-- Whether a frame can be sent: its header can be written, it is of a known
kind, and its payload is not too long for one frame. -/
structure Frame.Sendable (frame : Frame) : Prop where
  reserved : frame.header.reserved < 8
  opcode : frame.header.opcode.isKnown = true
  fits : frame.payload.length ≤ maxFrameLength

def Frame.wire (frame : Frame) : List UInt8 :=
  match frame.header.mask with
  | none => frame.payload
  | some key => key.apply frame.payload

variable {frame : Frame}

theorem writable_of_known {header : FrameHeader} (small : header.reserved < 8)
    (known : header.opcode.isKnown = true) : header.Writable where
  reserved := small
  number := by
    cases kind : header.opcode with
    | reserved number =>
        rw [kind] at known
        cases known
    | _ => decide
  opcode := by
    cases kind : header.opcode with
    | reserved number =>
        rw [kind] at known
        cases known
    | _ => rfl

theorem Frame.Sendable.short (sendable : frame.Sendable) :
    frame.payload.length < 2 ^ 64 := by
  have fits := sendable.fits
  unfold maxFrameLength at fits
  omega

@[simp] theorem Frame.length_wire (frame : Frame) :
    frame.wire.length = frame.payload.length := by
  unfold wire
  split
  · rfl
  · exact MaskKey.length_apply _ _

theorem Frame.ofWire_wire (frame : Frame) :
    Frame.ofWire frame.header frame.wire = frame := by
  rcases frame with ⟨⟨isFinal, reserved, opcode, mask⟩, payload⟩
  cases mask with
  | none => rfl
  | some key =>
      simp only [ofWire, wire, MaskKey.apply_apply]

theorem Frame.encode_eq (frame : Frame) :
    frame.encode = frame.header.encode frame.payload.length ++ frame.wire :=
  rfl

theorem announcement_error_known {announcement : Announcement}
    (known : announcement.header.opcode.isKnown = true) :
    announcement.error? =
      if maxFrameLength < announcement.length then
        some (.tooLong announcement.length)
      else none := by
  unfold Announcement.error?
  split
  · rename_i number kind
    rw [kind] at known
    cases known
  · rfl

namespace FrameDecoder

theorem completes_payload (header : FrameHeader) {wire : List UInt8}
    {missing : Nat} (length : wire.length = missing + 1) :
    Completes (.inPayload header #[] missing) wire start
      (.frame (.ofWire header wire)) := by
  have some : wire ≠ [] := List.ne_nil_of_length_eq_add_one length
  have whole := List.dropLast_concat_getLast some
  have passes := passes_payload header #[] 0 wire.dropLast
  rw [List.length_dropLast, length, Nat.zero_add] at passes
  refine ⟨wire.dropLast, wire.getLast some, _, whole.symm, passes, ?_⟩
  simp only [step, Array.toList_push, Array.toList_appendList,
    List.nil_append, whole]

theorem completes_frame (sendable : frame.Sendable) :
    Completes start frame.encode start (.frame frame) := by
  have header := completes_header
    (writable_of_known sendable.reserved sendable.opcode) sendable.short
  have announced : Announcement.error?
      { header := frame.header
        length := frame.payload.length } = none := by
    rw [announcement_error_known sendable.opcode]
    exact if_neg (Nat.not_lt.mpr sendable.fits)
  rw [frame.encode_eq]
  simp only [enter, announced] at header
  have length := frame.length_wire
  cases payload : frame.payload.length with
  | zero =>
      rw [payload] at header length
      have nothing := List.eq_nil_of_length_eq_zero length
      have whole := frame.ofWire_wire
      rw [nothing] at whole ⊢
      rw [List.append_nil]
      rw [whole] at header
      exact header
  | succ missing =>
      rw [payload] at header length
      have payload := completes_payload frame.header length
      rw [frame.ofWire_wire] at payload
      exact header.passes.completes payload

end FrameDecoder

end LatencyBench.WebSocket

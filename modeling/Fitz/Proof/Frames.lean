import Fitz.Model.Loop
import Fitz.Proof.Fields

/-!
# Frames round trip

The header of an encoded frame reads back as it was written, so what the broker
sees of a frame is what the session loop put into it.
-/

namespace Fitz

open BigEndian

/-- The bytes of an encoded frame, and what made the encoder accept it. -/
theorem tryEncodeFrame_ok {messageType : UInt16} {flags : UInt8} {correlationId : UInt64}
    {payload frame : Bytes} (h : tryEncodeFrame messageType flags correlationId payload = .ok frame) :
    frame = putU16 messageType ++ putU8 flags ++ putU64 correlationId ++
        toBe 4 payload.length ++ payload ∧
      frameHeaderLen + payload.length ≤ maxMessageSize ∧ flags &&& ~~~validFlags = 0 := by
  simp only [tryEncodeFrame] at h
  split at h
  · cases h
  · rename_i hsize
    split at h
    · cases h
    · rename_i hflags
      cases h
      exact ⟨rfl, by omega, not_not.1 hflags⟩

/-- **A frame that was encoded decodes to its header.** -/
theorem decodeFrameHeader_of_encode {messageType : UInt16} {flags : UInt8} {correlationId : UInt64}
    {payload frame : Bytes} (h : tryEncodeFrame messageType flags correlationId payload = .ok frame) :
    decodeFrameHeader frame = .ok ⟨messageType, flags, correlationId, frameHeaderLen⟩ := by
  obtain ⟨rfl, hsize, hflags⟩ := tryEncodeFrame_ok h
  set f := putU16 messageType ++ putU8 flags ++ putU64 correlationId ++ toBe 4 payload.length ++
    payload with hf
  -- each field is read back from its own bytes
  have hlen : f.length = 15 + payload.length := by
    simp [hf, putU8]
    omega
  have htype : f.take 2 = putU16 messageType := by
    rw [hf, List.append_assoc, List.append_assoc, List.append_assoc,
      List.take_append_of_le_length (by simp)]
    simp
  have hflag : f.getD 2 0 = flags := by
    rw [hf, List.append_assoc, List.append_assoc, List.append_assoc, List.getD_eq_getElem?_getD,
      List.getElem?_append_right (by simp)]
    simp [putU8]
  have hcorr : (f.drop 3).take 8 = putU64 correlationId := by
    have h3 : (putU16 messageType ++ putU8 flags).length = 3 := by simp [putU8]
    rw [hf, List.append_assoc, List.append_assoc, List.drop_left' h3]
    simp
  have hpl : (f.drop 11).take 4 = toBe 4 payload.length := by
    have h11 : (putU16 messageType ++ putU8 flags ++ putU64 correlationId).length = 11 := by
      simp [putU8]
    rw [hf, List.append_assoc, List.drop_left' h11]
    simp
  have hval : fromBe (toBe 4 payload.length) = payload.length := by
    rw [fromBe_toBe]
    unfold maxMessageSize at hsize
    omega
  simp only [decodeFrameHeader, htype, hflag, hcorr, hpl, hval, hflags, hlen, frameHeaderLen,
    ofNat_fromBe_putU16, ofNat_fromBe_putU64]
  simp only [frameHeaderLen] at hsize
  rw [if_neg (by omega), if_neg (by simp), if_neg (by omega), if_neg (by omega)]

/-- What a frame can be made of. -/
def FrameFits (flags : UInt8) (payload : Bytes) : Prop :=
  flags &&& ~~~validFlags = 0 ∧ 15 + payload.length ≤ 1048576

theorem tryEncodeFrame_of_frameFits {flags : UInt8} {payload : Bytes} (h : FrameFits flags payload)
    (messageType : UInt16) (correlationId : UInt64) :
    tryEncodeFrame messageType flags correlationId payload =
      .ok (putU16 messageType ++ putU8 flags ++ putU64 correlationId ++ toBe 4 payload.length ++
        payload) := by
  obtain ⟨hflags, hsize⟩ := h
  have hfits : ¬(frameHeaderLen + payload.length > maxMessageSize ∨ payload.length ≥ 2 ^ 32) := by
    unfold frameHeaderLen maxMessageSize
    omega
  simp only [tryEncodeFrame]
  rw [if_neg hfits, if_neg (not_not.2 hflags)]

/-- What made the decoder accept a header, and where its fields stand. -/
theorem decodeFrameHeader_ok {buf : Bytes} {header : FrameHeader}
    (h : decodeFrameHeader buf = .ok header) :
    header = ⟨UInt16.ofNat (fromBe (buf.take 2)), buf.getD 2 0,
        UInt64.ofNat (fromBe ((buf.drop 3).take 8)), frameHeaderLen⟩ ∧
      buf.getD 2 0 &&& ~~~validFlags = 0 ∧
      buf.length = frameHeaderLen + fromBe ((buf.drop 11).take 4) ∧
      buf.length ≤ maxMessageSize := by
  simp only [decodeFrameHeader] at h
  split at h
  · cases h
  · split at h
    · cases h
    · rename_i hflags
      split at h
      · cases h
      · rename_i hsize
        split at h
        · cases h
        · rename_i hlen
          cases h
          exact ⟨rfl, not_not.1 hflags, not_not.1 hlen, by omega⟩

/-- The five parts of a frame. -/
theorem frame_split {buf : Bytes} (h : 15 ≤ buf.length) :
    buf.take 2 ++ [buf.getD 2 0] ++ (buf.drop 3).take 8 ++ (buf.drop 11).take 4 ++ buf.drop 15 =
      buf := by
  have hflag : [buf.getD 2 0] = (buf.drop 2).take 1 := by
    rw [List.take_one_drop_eq_of_lt_length (by omega : 2 < buf.length), List.getD_eq_getElem?_getD,
      List.getElem?_eq_getElem (by omega : 2 < buf.length)]
    rfl
  have hjoin : ∀ m n : ℕ, (buf.drop m).take n ++ buf.drop (m + n) = buf.drop m := by
    intro m n
    rw [← List.drop_drop, List.take_append_drop]
  rw [hflag, List.append_assoc, List.append_assoc, List.append_assoc]
  rw [hjoin 11 4, hjoin 3 8, hjoin 2 1, List.take_append_drop]

/-- A header that was accepted is made of the bytes it was read from. -/
theorem tryEncodeFrame_of_decode {buf : Bytes} {header : FrameHeader}
    (h : decodeFrameHeader buf = .ok header) :
    tryEncodeFrame header.messageType header.flags header.correlationId
      (buf.drop header.payloadStart) = .ok buf := by
  obtain ⟨rfl, hflags, hlen, hmax⟩ := decodeFrameHeader_ok h
  simp only [frameHeaderLen] at hlen ⊢
  have hsize : (buf.drop 15).length = fromBe ((buf.drop 11).take 4) := by
    rw [List.length_drop]
    omega
  have hfits : FrameFits (buf.getD 2 0) (buf.drop 15) := by
    refine ⟨hflags, ?_⟩
    unfold maxMessageSize at hmax
    omega
  have htype : putU16 (UInt16.ofNat (fromBe (buf.take 2))) = buf.take 2 :=
    putU16_ofNat_fromBe (by rw [List.length_take]; omega)
  have hcorr : putU64 (UInt64.ofNat (fromBe ((buf.drop 3).take 8))) = (buf.drop 3).take 8 :=
    putU64_ofNat_fromBe (by rw [List.length_take, List.length_drop]; omega)
  have hfour : ((buf.drop 11).take 4).length = 4 := by
    rw [List.length_take, List.length_drop]
    omega
  have hcount : toBe 4 (fromBe ((buf.drop 11).take 4)) = (buf.drop 11).take 4 :=
    toBe_fromBe_of_length hfour
  rw [tryEncodeFrame_of_frameFits hfits, htype, hcorr, hsize, hcount, putU8, frame_split (by omega)]

/-- **The frame codec is a bijection on valid frames.** -/
theorem frame_codec_bijective :
    (∀ messageType flags correlationId payload, FrameFits flags payload →
      ∃ frame, tryEncodeFrame messageType flags correlationId payload = .ok frame ∧
        ∃ header, decodeFrameHeader frame = .ok header ∧ header.messageType = messageType ∧
          header.flags = flags ∧ header.correlationId = correlationId ∧
          frame.drop header.payloadStart = payload) ∧
    (∀ messageType flags correlationId payload, ¬FrameFits flags payload →
      ∃ error, tryEncodeFrame messageType flags correlationId payload = .error error) ∧
    ∀ buf header, decodeFrameHeader buf = .ok header →
      tryEncodeFrame header.messageType header.flags header.correlationId
        (buf.drop header.payloadStart) = .ok buf := by
  refine ⟨?_, ?_, ?_⟩
  · intro messageType flags correlationId payload hfits
    have henc := tryEncodeFrame_of_frameFits hfits messageType correlationId
    refine ⟨_, henc, _, decodeFrameHeader_of_encode henc, rfl, rfl, rfl, ?_⟩
    have hlen : (putU16 messageType ++ putU8 flags ++ putU64 correlationId ++
        toBe 4 payload.length).length = frameHeaderLen := by simp [putU8, frameHeaderLen]
    exact List.drop_left' hlen
  · intro messageType flags correlationId payload hfits
    cases henc : tryEncodeFrame messageType flags correlationId payload with
    | error error => exact ⟨error, rfl⟩
    | ok frame =>
      obtain ⟨-, hsize, hflags⟩ := tryEncodeFrame_ok henc
      exact absurd ⟨hflags, hsize⟩ hfits
  · intro buf header h
    exact tryEncodeFrame_of_decode h

/-- What `encode_outbound` accepts is a frame within the limit in force. -/
theorem encodeOutbound_ok {sh : Shared} {messageType : UInt16} {flags : UInt8}
    {correlationId : UInt64} {payload frame : Bytes}
    (h : encodeOutbound sh messageType flags correlationId payload = .ok frame) :
    tryEncodeFrame messageType flags correlationId payload = .ok frame ∧
      frame.length ≤ sh.maxMessageBytes.toNat := by
  unfold encodeOutbound at h
  cases henc : tryEncodeFrame messageType flags correlationId payload with
  | error e => simp [henc, bind, Except.bind] at h
  | ok f =>
    simp only [henc, bind, Except.bind] at h
    split at h
    · cases h
    · cases h
      exact ⟨rfl, by omega⟩

/-- The broker reads it with the same header. -/
theorem decodeFrameHeader_of_outbound {sh : Shared} {messageType : UInt16} {flags : UInt8}
    {correlationId : UInt64} {payload frame : Bytes}
    (h : encodeOutbound sh messageType flags correlationId payload = .ok frame) :
    decodeFrameHeader frame = .ok ⟨messageType, flags, correlationId, frameHeaderLen⟩ :=
  decodeFrameHeader_of_encode (encodeOutbound_ok h).1

end Fitz

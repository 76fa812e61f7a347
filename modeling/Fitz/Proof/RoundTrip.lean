import Fitz.Model.Subscription
import Fitz.Proof.History

/-!
# Frames read during a restore

`read_session` inside `round_trip_session` is a second reader of the wire beside
`decode_incoming`. `restore_agrees`: for every frame the two treat it alike exactly
when it has no header, or is within the negotiated size, carries no extension
envelope and is no control frame. Elsewhere the restore hands the raw payload on,
envelope and all, and publishes what the session would act on or refuse.
-/

namespace Fitz

/-! ## The two readers -/

/-- What becomes of a frame while a registration of some type is restored. -/
inductive Treatment
  | rejected
  /-- it took effect on the atomics, and nobody is handed its payload -/
  | control (sh : Shared)
  /-- the decoder of the registration gets the payload -/
  | reply (payload : Bytes)
  | notification (messageType : UInt16) (payload : Bytes)
  deriving DecidableEq

/-- By its type alone a payload is the reply, or a notification. -/
def handOn (expected messageType : UInt16) (payload : Bytes) : Treatment :=
  if messageType = expected then .reply payload else .notification messageType payload

/-- `read_session`. -/
def readSession (frame : Bytes) : Result (UInt16 × Bytes) := do
  let header ← decodeFrameHeader frame
  return (header.messageType, frame.drop header.payloadStart)

/-- One pass of the loop of `round_trip_session`. -/
def roundTripRead (expected : UInt16) (frame : Bytes) : Treatment :=
  match readSession frame with
  | .ok (messageType, payload) => handOn expected messageType payload
  | .error _ => .rejected

/-- The pass if the frame went through `decode_incoming`, as in a session. -/
def incomingRead (sh : Shared) (expected : UInt16) (frame : Bytes) : Treatment :=
  match decodeIncoming sh frame with
  | .ok (_, record :: _) => handOn expected record.messageType record.payload
  | .ok (sh', []) => .control sh'
  | .error _ => .rejected

/-- The types `decode_incoming` acts on or refuses itself. -/
def isControl (messageType : UInt16) : Bool :=
  messageType == MessageType.hello || messageType == MessageType.goaway ||
    messageType == MessageType.connectRejected

/-- The frame has no header, or is a plain one within the size of the session. -/
def PlainFrame (sh : Shared) (frame : Bytes) : Prop :=
  ∀ header, decodeFrameHeader frame = .ok header →
    frame.length ≤ sh.maxMessageBytes.toNat ∧ header.flags &&& extensionsPresent = 0 ∧
      isControl header.messageType = false

/-! ## The restore of a connection -/

namespace Conn

/-- What the round trip of `registration` does with a frame it has read. -/
def settleRead (s : Conn) (registration : Registration) : Treatment → Conn
  | .rejected => { s with current := none }
  | .control sh => { s with shared := sh }
  | .notification messageType payload =>
    { s with log := s.log ++ [.published s.serial messageType payload] }
  | .reply payload =>
    match registration.decoder payload with
    | .error _ => { s with current := none }
    | .ok wireId =>
      { s with
        current := none
        wireIds := Function.update s.wireIds registration.wireId wireId
        held := Function.update s.held registration.wireId (some (s.serial, registration)) }

/-- The connection restores through `roundTripRead`. -/
theorem restoreRead_eq {s : Conn} {registration : Registration} (hpc : s.pc = .restoring)
    (hcur : s.current = some registration) (frame : Bytes) (answers : Option ℕ) :
    s.restoreRead frame answers =
      (s.read frame answers).settleRead registration
        (roundTripRead registration.messageType frame) := by
  unfold restoreRead roundTripRead readSession
  rw [hpc, hcur]
  cases hh : decodeFrameHeader frame with
  | error e => rfl
  | ok header =>
    by_cases htype : header.messageType = registration.messageType
    · simp only [htype, if_true, bind, Except.bind, pure, Except.pure, handOn, settleRead]
      cases registration.decoder (frame.drop header.payloadStart) <;> rfl
    · simp only [htype, if_false, bind, Except.bind, pure, Except.pure, handOn, settleRead]
      rfl

end Conn

/-! ## Envelopes -/

/-- The core of an envelope is shorter than the payload. -/
theorem Wire3.decode_length {payload core : Bytes} {messageType mask : UInt16} {flags : UInt8}
    (h : Wire3.decode payload messageType flags = .ok (core, mask))
    (hext : flags &&& extensionsPresent ≠ 0) : core.length < payload.length := by
  unfold Wire3.decode at h
  simp only [hext, if_false] at h
  cases hlen : getU32.on payload with
  | error e => simp [hlen, bind, Except.bind] at h
  | ok coreLength =>
    simp only [hlen, bind, Except.bind, throw, throwThe, MonadExceptOf.throw] at h
    split at h
    · cases h
    · rename_i hend
      split at h
      · cases h
      · split at h
        · cases h
        · cases h
          simp only [List.length_drop, List.length_take]
          omega

/-- Without the flag the payload is the core, unless the frame is a HELLO. -/
theorem Wire3.decode_plain (payload : Bytes) {messageType : UInt16} {flags : UInt8}
    (hext : flags &&& extensionsPresent = 0) (hhello : messageType ≠ MessageType.hello) :
    Wire3.decode payload messageType flags = .ok (payload, 0) := by
  have hb : (messageType == MessageType.hello) = false := by simpa using hhello
  simp [Wire3.decode, hext, hb, pure, Except.pure]

/-! ## Agreement -/

section

variable {sh : Shared} {expected : UInt16} {frame : Bytes} {header : FrameHeader}

theorem roundTripRead_of_header (hh : decodeFrameHeader frame = .ok header) :
    roundTripRead expected frame =
      handOn expected header.messageType (frame.drop header.payloadStart) := by
  simp [roundTripRead, readSession, hh, bind, Except.bind, pure, Except.pure]

theorem handOn_ne_rejected (messageType : UInt16) (payload : Bytes) :
    handOn expected messageType payload ≠ .rejected := by
  unfold handOn
  split <;> simp

theorem handOn_ne_control (messageType : UInt16) (payload : Bytes) (sh' : Shared) :
    handOn expected messageType payload ≠ .control sh' := by
  unfold handOn
  split <;> simp

theorem handOn_inj {messageType : UInt16} {payload payload' : Bytes}
    (h : handOn expected messageType payload = handOn expected messageType payload') :
    payload = payload' := by
  unfold handOn at h
  split at h
  · injection h
  · injection h

/-- What `decode_incoming` accepts is within the size and has a core; it returns
that as a record unless the frame is a control frame. -/
theorem decodeIncoming_accepted {sh' : Shared} {records : List IncomingRecord}
    (hh : decodeFrameHeader frame = .ok header)
    (h : decodeIncoming sh frame = .ok (sh', records)) :
    frame.length ≤ sh.maxMessageBytes.toNat ∧ ∃ core mask,
      Wire3.decode (frame.drop header.payloadStart) header.messageType header.flags =
        .ok (core, mask) ∧
      (records = [] ∨ isControl header.messageType = false ∧
        records = [⟨header.messageType, core, header.correlationId,
          header.flags &&& responseFinal != 0⟩]) := by
  unfold decodeIncoming at h
  split at h
  · cases h
  · rename_i hsize
    refine ⟨not_lt.1 hsize, ?_⟩
    cases hcore : Wire3.decode (frame.drop header.payloadStart) header.messageType
        header.flags with
    | error e => simp [hh, hcore, bind, Except.bind] at h
    | ok r =>
      obtain ⟨core, mask⟩ := r
      refine ⟨core, mask, rfl, ?_⟩
      simp only [hh, hcore, pure, Except.pure, bind, Except.bind, throw, throwThe,
        MonadExceptOf.throw] at h
      -- control frames hand no record on
      by_cases hhello : header.messageType = MessageType.hello
      · rw [if_pos hhello] at h
        left
        repeat' split at h
        all_goals cases h
        rfl
      · rw [if_neg hhello] at h
        by_cases hgoaway : header.messageType = MessageType.goaway
        · rw [if_pos hgoaway] at h
          left
          repeat' split at h
          all_goals cases h
          rfl
        · rw [if_neg hgoaway] at h
          by_cases hrej : header.messageType = MessageType.connectRejected
          · rw [if_pos hrej] at h
            cases h
          · rw [if_neg hrej] at h
            cases h
            exact .inr ⟨by simp [isControl, hhello, hgoaway, hrej], rfl⟩

/-- A frame that `decode_incoming` hands on is within the size, no control frame,
and what is handed on is its core. -/
theorem incomingRead_handed (hh : decodeFrameHeader frame = .ok header)
    (hne : incomingRead sh expected frame ≠ .rejected)
    (hnc : ∀ sh', incomingRead sh expected frame ≠ .control sh') :
    frame.length ≤ sh.maxMessageBytes.toNat ∧ isControl header.messageType = false ∧
      ∃ core mask, Wire3.decode (frame.drop header.payloadStart) header.messageType header.flags =
          .ok (core, mask) ∧
        incomingRead sh expected frame = handOn expected header.messageType core := by
  cases hdec : decodeIncoming sh frame with
  | error e => simp [incomingRead, hdec] at hne
  | ok r =>
    obtain ⟨sh', records⟩ := r
    obtain ⟨hsize, core, mask, hcore, rfl | ⟨hcontrol, rfl⟩⟩ := decodeIncoming_accepted hh hdec
    · exact absurd (by simp only [incomingRead, hdec]) (hnc sh')
    · exact ⟨hsize, hcontrol, core, mask, hcore, by simp only [incomingRead, hdec]⟩

/-- A plain frame is handed on as it is. -/
theorem incomingRead_plain (hh : decodeFrameHeader frame = .ok header)
    (hsize : frame.length ≤ sh.maxMessageBytes.toNat)
    (hext : header.flags &&& extensionsPresent = 0)
    (hcontrol : isControl header.messageType = false) :
    incomingRead sh expected frame =
      handOn expected header.messageType (frame.drop header.payloadStart) := by
  simp only [isControl, Bool.or_eq_false_iff, beq_eq_false_iff_ne] at hcontrol
  obtain ⟨⟨hhello, hgoaway⟩, hrej⟩ := hcontrol
  have hcore := Wire3.decode_plain (frame.drop header.payloadStart) hext hhello
  have hdec : decodeIncoming sh frame = .ok (sh, [⟨header.messageType,
      frame.drop header.payloadStart, header.correlationId,
      header.flags &&& responseFinal != 0⟩]) := by
    simp [decodeIncoming, not_lt.2 hsize, hh, hcore, hhello, hgoaway, hrej, bind, Except.bind, pure,
      Except.pure]
  simp only [incomingRead, hdec]

end

/-- **Agreement of the readers.** For every frame, type expected and state of the
session, the restore treats the frame as `decode_incoming` does exactly when it has
no header or is a plain one within the size. -/
theorem restore_agrees (sh : Shared) (expected : UInt16) (frame : Bytes) :
    roundTripRead expected frame = incomingRead sh expected frame ↔ PlainFrame sh frame := by
  cases hh : decodeFrameHeader frame with
  | error e =>
    have hround : roundTripRead expected frame = .rejected := by
      simp [roundTripRead, readSession, hh, bind, Except.bind]
    have hincoming : incomingRead sh expected frame = .rejected := by
      unfold incomingRead decodeIncoming
      by_cases hsize : frame.length > sh.maxMessageBytes.toNat
      · simp [hsize, throw, throwThe, MonadExceptOf.throw, bind, Except.bind]
      · simp [hsize, hh, bind, Except.bind]
    simp [hround, hincoming, PlainFrame, hh]
  | ok header =>
    rw [roundTripRead_of_header hh]
    constructor
    · intro hagree header' hh'
      obtain rfl : header = header' := Except.ok.inj (hh.symm.trans hh')
      obtain ⟨hsize, hcontrol, core, mask, hcore, hincoming⟩ :=
        incomingRead_handed hh (hagree ▸ handOn_ne_rejected _ _)
          (fun sh' => hagree ▸ handOn_ne_control _ _ sh')
      refine ⟨hsize, ?_, hcontrol⟩
      by_contra hext
      have hlen := Wire3.decode_length hcore hext
      rw [hincoming] at hagree
      rw [← handOn_inj hagree] at hlen
      exact lt_irrefl _ hlen
    · intro hplain
      obtain ⟨hsize, hext, hcontrol⟩ := hplain header hh
      exact (incomingRead_plain hh hsize hext hcontrol).symm

/-! ## An enveloped reply -/

/-- A KV SUBSCRIBE reply that assigns `id`, with one extension field. -/
def envelopedReply (id : UInt64) : Bytes :=
  ((Wire3.encode ([0] ++ putU64 id) [(9, [])]).bind fun payload =>
    tryEncodeFrame MessageType.kvSubscribe (responseFinal ||| extensionsPresent) 1
      payload).toOption.getD []

/-- The id a KV registration takes from what it was handed. -/
def assignedId : Treatment → Option UInt64
  | .reply payload => (Topic.kv.decodeSubscriptionId payload).toOption
  | _ => none

/-- A GOAWAY without extensions. -/
def goawayFrame : Bytes :=
  (tryEncodeFrame MessageType.goaway 0 0 (putU16 1 ++ putU32 0 ++ putU32 0)).toOption.getD []

/-- The atomics of a session with the largest frames. -/
def openShared : Shared := ⟨1, 0x300000000, 1048576, 8, 0⟩

/-- The broker assigns the id 7 in a reply with an extension. The session reader
finds it; the restore succeeds with another id, read from the envelope. A GOAWAY
is acted on by the one and published by the other. -/
theorem restore_reads_envelope :
    (assignedId (incomingRead openShared MessageType.kvSubscribe (envelopedReply 7)) = some 7 ∧
        assignedId (roundTripRead MessageType.kvSubscribe (envelopedReply 7)) =
          some 0x90000000000) ∧
      (incomingRead openShared MessageType.kvSubscribe goawayFrame = .control openShared ∧
        roundTripRead MessageType.kvSubscribe goawayFrame =
          .notification MessageType.goaway (putU16 1 ++ putU32 0 ++ putU32 0)) ∧
      ¬∀ (sh : Shared) (expected : UInt16) (frame : Bytes),
        roundTripRead expected frame = incomingRead sh expected frame := by
  refine ⟨⟨by decide +kernel, by decide +kernel⟩, ⟨by decide +kernel, by decide +kernel⟩, ?_⟩
  intro hall
  have hfalse : ¬roundTripRead MessageType.kvSubscribe goawayFrame =
      incomingRead openShared MessageType.kvSubscribe goawayFrame := by decide +kernel
  exact hfalse (hall _ _ _)

end Fitz

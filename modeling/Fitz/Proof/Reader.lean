import Fitz.Model.Reader
import Fitz.Lib.Framing

/-!
# Frames survive the session loop when no read is interrupted

`run_io` drops the `read_tcp_frame` future whenever a command or a cancellation
wins the pass, and the bytes that future holds with it. `decoded_prefix`: in
every run in which those branches win only while the reader holds nothing, the
frames passed to `decode_incoming` are a prefix of the frames the peer wrote,
whatever the chunks and the interleaving. `decoded_not_prefix` is a run that
interrupts the reader after a length prefix and decodes bytes from the middle of
a frame.
-/

namespace Fitz

open BigEndian Machine Framing

/-- The frames a peer may send: `15..=1048576` bytes. -/
def FrameSize (frame : Bytes) : Prop :=
  frameHeaderLen ≤ frame.length ∧ frame.length ≤ maxMessageSize

instance (frame : Bytes) : Decidable (FrameSize frame) :=
  inferInstanceAs (Decidable (_ ∧ _))

/-- A suspended reader still needs bytes, and has checked the length it read. -/
def ReadFuture.Ok : ReadFuture → Prop
  | .readU32 got => got.length < 4
  | .readExact len got => frameHeaderLen ≤ len ∧ len ≤ maxMessageSize ∧ got.length < len

/-- What a poll does with the bytes held and the bytes available: nothing is lost,
and a completed read is one whole frame. -/
def PollSpec (held avail : Bytes) : Polled × Bytes → Prop
  | (.pending future, rest) => future.Ok ∧ future.held = held ++ avail ∧ rest = []
  | (.ready (.ok frame), rest) => FrameSize frame ∧ held ++ avail = writeTcpFrame frame ++ rest
  | (.ready (.error _), _) => True

theorem pollReadExact_spec (len : ℕ) (got : Bytes) (h : (ReadFuture.readExact len got).Ok)
    (avail : Bytes) (eof : Bool) :
    PollSpec (toBe 4 len ++ got) avail (pollReadExact len got avail eof) := by
  obtain ⟨h1, h2, h3⟩ := h
  unfold pollReadExact
  simp only
  split
  · rename_i hneed
    have hlen : (got ++ avail.take (len - got.length)).length = len := by
      simp only [List.length_append, List.length_take]; omega
    refine ⟨⟨by omega, by omega⟩, ?_⟩
    rw [writeTcpFrame, hlen]
    simp only [List.append_assoc, List.take_append_drop]
  · rename_i hneed
    split
    · trivial
    · refine ⟨⟨h1, h2, ?_⟩, by simp [ReadFuture.held], rfl⟩
      rw [List.length_append]; omega

/-- **One poll of the reader loses nothing.** -/
theorem poll_spec {future : ReadFuture} (h : future.Ok) (avail : Bytes) (eof : Bool) :
    PollSpec future.held avail (future.poll avail eof) := by
  cases future with
  | readExact len got => exact pollReadExact_spec len got h avail eof
  | readU32 got =>
    have h4 : got.length < 4 := h
    unfold ReadFuture.poll
    simp only
    split
    · rename_i hneed
      set word := got ++ avail.take (4 - got.length) with hword
      have hlen : word.length = 4 := by
        rw [hword, List.length_append, List.length_take]; omega
      have hback : toBe 4 (fromBe word) = word := by
        have := toBe_fromBe word; rwa [hlen] at this
      have hsplit : got ++ avail = word ++ avail.drop (4 - got.length) := by
        rw [hword, List.append_assoc, List.take_append_drop]
      split
      · rename_i hrange
        have hspec := pollReadExact_spec (fromBe word) []
          ⟨hrange.1, hrange.2, lt_of_lt_of_le (by decide) hrange.1⟩
          (avail.drop (4 - got.length)) eof
        rw [hback, List.append_nil] at hspec
        -- the length prefix and the body belong to the same poll
        unfold PollSpec at hspec ⊢
        simp only [ReadFuture.held]
        rw [hsplit]
        exact hspec
      · trivial
    · split
      · trivial
      · refine ⟨?_, rfl, rfl⟩
        simp only [ReadFuture.Ok, List.length_append]; omega

/-- A poll takes bytes from the front of the socket. -/
theorem poll_rest (future : ReadFuture) (avail : Bytes) (eof : Bool) :
    (future.poll avail eof).2 <:+ avail := by
  have hbody : ∀ len got (avail : Bytes), (pollReadExact len got avail eof).2 <:+ avail := by
    intro len got avail
    simp only [pollReadExact]
    split
    · exact List.drop_suffix _ _
    · split <;> exact List.nil_suffix
  cases future with
  | readExact len got => exact hbody len got avail
  | readU32 got =>
    simp only [ReadFuture.poll]
    split
    · split
      · exact (hbody _ _ _).trans (List.drop_suffix _ _)
      · exact List.drop_suffix _ _
    · split <;> exact List.nil_suffix

/-- The four bytes that a reader took for a length are none. -/
def BadLength (bytes : Bytes) : Prop :=
  ∃ word rest, bytes = word ++ rest ∧ word.length = 4 ∧
    ¬(frameHeaderLen ≤ fromBe word ∧ fromBe word ≤ maxMessageSize)

/-- A reader fails where the peer closed, or on a length it refuses. -/
theorem poll_error {future : ReadFuture} (h : future.Ok) {avail rest : Bytes} {eof : Bool}
    {error : FitzError} (hp : future.poll avail eof = (.ready (.error error), rest)) :
    eof = true ∧ rest = [] ∨ BadLength (future.held ++ avail) := by
  have hbody : ∀ len got (avail : Bytes),
      pollReadExact len got avail eof = (.ready (.error error), rest) → eof = true ∧ rest = [] := by
    intro len got avail hp
    simp only [pollReadExact] at hp
    split at hp
    · cases hp
    · split at hp
      · rename_i heof
        cases hp
        exact ⟨heof, rfl⟩
      · cases hp
  cases future with
  | readExact len got => exact .inl (hbody len got avail hp)
  | readU32 got =>
    have h4 : got.length < 4 := h
    simp only [ReadFuture.poll] at hp
    split at hp
    · rename_i hneed
      split at hp
      · exact .inl (hbody _ _ _ hp)
      · rename_i hrange
        refine .inr ⟨got ++ avail.take (4 - got.length), avail.drop (4 - got.length), ?_, ?_, hrange⟩
        · rw [List.append_assoc, List.take_append_drop]
          rfl
        · rw [List.length_append, List.length_take]
          omega
    · split at hp
      · rename_i heof
        cases hp
        exact .inl ⟨heof, rfl⟩
      · cases hp

theorem writeTcpFrame_ne_nil (frame : Bytes) : writeTcpFrame frame ≠ [] := by
  intro h
  have := congrArg List.length h
  simp [writeTcpFrame] at this

/-- **TCP framing is prefix free** on frames of admissible size. -/
theorem writeTcpFrame_prefixFree : PrefixFree writeTcpFrame FrameSize := by
  intro f g hf hg h
  have hpre : toBe 4 f.length = toBe 4 g.length := by
    have h1 : toBe 4 f.length <+: writeTcpFrame g := (List.prefix_append _ _).trans h
    have h2 : toBe 4 g.length <+: writeTcpFrame g := List.prefix_append _ _
    exact List.IsPrefix.eq_of_length (List.prefix_of_prefix_length_le h1 h2 (by simp)) (by simp)
  have hmax : maxMessageSize < 256 ^ 4 := by decide
  have hlen : f.length = g.length :=
    toBe_inj (lt_of_le_of_lt hf.2 hmax) (lt_of_le_of_lt hg.2 hmax) hpre
  unfold writeTcpFrame at h
  rw [hpre] at h
  exact ((List.prefix_append_right_inj _).1 h).eq_of_length hlen

/-- No stream of frames begins with a bad length. -/
theorem not_badLength {frames : List Bytes} (hframes : ∀ f ∈ frames, FrameSize f) {bytes : Bytes}
    (hpre : bytes <+: stream writeTcpFrame frames) : ¬ BadLength bytes := by
  rintro ⟨word, rest, rfl, hlen, hbad⟩
  cases frames with
  | nil =>
    rw [stream_nil, List.prefix_nil, List.append_eq_nil_iff] at hpre
    rw [hpre.1] at hlen
    cases hlen
  | cons frame frames =>
    obtain ⟨hmin, hmax⟩ := hframes frame List.mem_cons_self
    have hword : word <+: toBe 4 frame.length ++ (frame ++ stream writeTcpFrame frames) := by
      rw [← List.append_assoc]
      exact (List.prefix_append _ _).trans hpre
    have heq : word = toBe 4 frame.length :=
      (List.prefix_of_prefix_length_le hword (List.prefix_append _ _) (by simp [hlen])).eq_of_length
        (by simp [hlen])
    have hback : fromBe word = frame.length := by
      rw [heq, fromBe_toBe]
      exact Nat.mod_eq_of_lt (lt_of_le_of_lt hmax (by decide))
    exact hbad (hback ▸ ⟨hmin, hmax⟩)

/-- No command or cancellation wins a pass while the reader holds bytes. -/
def ReaderIdle (s : RunIo) : IoEvent → Prop
  | .command _ _ | .cancel _ => s.ended = none → s.future = .new
  | _ => True

instance (s : RunIo) (e : IoEvent) : Decidable (ReaderIdle s e) := by
  unfold ReaderIdle
  split <;> infer_instance

/-- The bytes decoded, held and buffered, and those still to arrive, are the
beginning of the peer's stream. -/
structure ReaderInv (frames : List Bytes) (s : RunIo) (es : List IoEvent) : Prop where
  decoded : s.decoded <+: frames
  future : s.future.Ok
  bytes : s.ended = none →
    stream writeTcpFrame s.decoded ++ (s.future.held ++ (s.socket ++ arrivals es)) <+:
      stream writeTcpFrame frames

theorem arrivals_cons (e : IoEvent) (es : List IoEvent) :
    arrivals (e :: es) = e.arrived ++ arrivals es := rfl

theorem new_ok : ReadFuture.new.Ok := Nat.zero_lt_succ 3

/-- A pass won by a command or a cancellation keeps the invariant when the reader
held nothing. -/
theorem finishPass_inv {frames : List Bytes} {s : RunIo} {es : List IoEvent} (turn : Turn)
    (h : ReaderInv frames s es) (hend : s.ended = none) (hf : s.future = .new) :
    ReaderInv frames (s.finishPass turn) es :=
  ⟨h.decoded, new_ok, fun _ => by
    have := h.bytes hend
    rw [hf] at this
    exact this⟩

/-- A pass that ended the session keeps the invariant. -/
theorem finishPass_ended {frames : List Bytes} {s : RunIo} {es : List IoEvent} {turn : Turn}
    (hd : s.decoded <+: frames) (hr : turn.result ≠ none) :
    ReaderInv frames (s.finishPass turn) es :=
  ⟨hd, new_ok, fun h => absurd h hr⟩

/-- **Polling the reader keeps the invariant.** -/
theorem pollRead_inv {frames : List Bytes} (hframes : ∀ f ∈ frames, FrameSize f) {s : RunIo}
    {es : List IoEvent} (written : Result Unit) (h : ReaderInv frames s es) (hend : s.ended = none) :
    ReaderInv frames (s.pollRead written) es := by
  have hspec := poll_spec h.future s.socket s.eof
  have hbytes := h.bytes hend
  unfold RunIo.pollRead
  cases hp : s.future.poll s.socket s.eof with
  | mk outcome rest =>
    rw [hp] at hspec
    cases outcome with
    | pending future =>
      obtain ⟨hok, hheld, rfl⟩ := hspec
      refine ⟨h.decoded, hok, fun _ => ?_⟩
      simp only [hheld, List.nil_append, List.append_assoc]
      exact hbytes
    | ready result =>
      cases result with
      | error e => exact finishPass_ended h.decoded (by simp [Loop.onReadError, Loop.finish])
      | ok frame =>
        obtain ⟨hsize, hheld⟩ := hspec
        -- the frame just read is the next one the peer wrote
        obtain ⟨tail, hfr⟩ := h.decoded
        rw [← hfr, stream_append, List.prefix_append_right_inj, ← List.append_assoc, hheld,
          List.append_assoc] at hbytes
        obtain ⟨gs, rfl, hrest⟩ := stream_head writeTcpFrame_prefixFree writeTcpFrame_ne_nil hsize
          (fun g hg => hframes g (hfr ▸ List.mem_append_right _ hg)) hbytes
        have hdec : s.decoded ++ [frame] ++ gs = frames := by simpa using hfr
        refine ⟨⟨gs, hdec⟩, new_ok, fun _ => ?_⟩
        rw [← hdec, stream_append]
        exact (List.prefix_append_right_inj _).2 hrest

theorem step_inv {frames : List Bytes} (hframes : ∀ f ∈ frames, FrameSize f) (s : RunIo)
    (e : IoEvent) (es : List IoEvent) (h : ReaderInv frames s (e :: es)) (hc : ReaderIdle s e) :
    ReaderInv frames (s.step e) es := by
  unfold RunIo.step
  split
  · rename_i hended
    exact ⟨h.decoded, h.future, fun hn => by rw [hn] at hended; simp at hended⟩
  · rename_i hended
    have hend : s.ended = none := by simpa using hended
    have hbytes := h.bytes hend
    rw [arrivals_cons] at hbytes
    cases e with
    | arrive chunk =>
      refine ⟨h.decoded, h.future, fun _ => ?_⟩
      simpa only [IoEvent.arrived, List.append_assoc] using hbytes
    | eof => exact ⟨h.decoded, h.future, fun _ => hbytes⟩
    | pollRead written =>
      exact pollRead_inv hframes written ⟨h.decoded, h.future, fun _ => hbytes⟩ hend
    | command command written =>
      exact finishPass_inv _ ⟨h.decoded, h.future, fun _ => hbytes⟩ hend (hc hend)
    | hangup => exact finishPass_ended h.decoded (by simp [Loop.onHangup, Loop.finish])
    | cancel id => exact finishPass_inv _ ⟨h.decoded, h.future, fun _ => hbytes⟩ hend (hc hend)

/-- **Frames arrive whole and in order.** For every list of frames a peer writes,
every split into chunks and every interleaving of commands, cancellations and
polls in which no command or cancellation wins a pass while the reader holds
bytes, the frames passed to `decode_incoming` are a prefix of those written. -/
theorem decoded_prefix (shared : Shared) (frames : List Bytes)
    (hframes : ∀ f ∈ frames, FrameSize f) (es : List IoEvent)
    (harr : arrivals es <+: stream writeTcpFrame frames)
    (hidle : Along RunIo.step ReaderIdle (.new shared) es) :
    (run RunIo.step (.new shared) es).decoded <+: frames := by
  have h0 : ReaderInv frames (.new shared) es :=
    ⟨List.nil_prefix, new_ok, fun _ => harr⟩
  exact (along_inv_rest (I := ReaderInv frames) (step_inv hframes) h0 hidle).decoded

/-- The atomics of a session whose HELLO granted one megabyte and 256 requests. -/
def sessionShared : Shared := ⟨1, 0x300000000, 1048576, 256, 0⟩

/-- A notification with an empty body. -/
def innerFrame : Bytes := [0, 111, 0, 0, 0, 0, 0, 0, 0, 0, 0, 0, 0, 0, 0]

/-- A notification whose body is the wire form of `innerFrame`. -/
def outerFrame : Bytes :=
  [0, 111, 0, 0, 0, 0, 0, 0, 0, 0, 0, 0, 0, 0, 19] ++ writeTcpFrame innerFrame

/-- The frame header arrives and is polled, a `Connect` command wins the pass, and
the rest of the frame arrives. -/
def interruptedRead : List IoEvent :=
  [.arrive ((writeTcpFrame outerFrame).take 19), .pollRead (.ok ()),
    .command (.connect 0) (.ok ()), .arrive ((writeTcpFrame outerFrame).drop 19),
    .pollRead (.ok ())]

/-- **An interrupted read loses the bytes it holds**: the loop goes on in the
middle of the frame and decodes bytes that are no frame of the peer. -/
theorem decoded_not_prefix :
    FrameSize outerFrame ∧
      arrivals interruptedRead <+: stream writeTcpFrame [outerFrame] ∧
      ¬ (run RunIo.step (.new sessionShared) interruptedRead).decoded <+: [outerFrame] := by
  decide +kernel

/-- Two frames in three chunks, with a command between them. -/
def boundaryRead : List IoEvent :=
  [.arrive ((writeTcpFrame outerFrame).take 7), .pollRead (.ok ()),
    .arrive ((writeTcpFrame outerFrame).drop 7), .pollRead (.ok ()),
    .command (.connect 0) (.ok ()), .cancel 1, .arrive (writeTcpFrame innerFrame),
    .pollRead (.ok ())]

theorem decoded_prefix_boundaryRead :
    (run RunIo.step (.new sessionShared) boundaryRead).decoded = [outerFrame, innerFrame] ∧
      (run RunIo.step (.new sessionShared) boundaryRead).decoded <+: [outerFrame, innerFrame] :=
  ⟨by decide +kernel, decoded_prefix sessionShared [outerFrame, innerFrame] (by decide +kernel)
    boundaryRead (by decide +kernel) (by decide +kernel)⟩

end Fitz

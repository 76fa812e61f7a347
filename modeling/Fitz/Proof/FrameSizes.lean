import Fitz.Proof.History

/-!
# The size of what a session writes

Requests and sends are encoded against the limit of the session's HELLO, and the
replayed registrations against the library's own. `frames_within_limit`: in every
run in which each registration replayed on a session fits the limit advertised
there, so does every frame written, and an operation that does not fit is
answered with `FrameTooLarge` and leaves nothing on the wire.
-/

namespace Fitz

open Machine

/-! ## The traffic of a connection -/

/-- The transport an entry says a frame was handed to. -/
def Obs.transport? : Obs → Option ℕ
  | .wrote serial _ => some serial
  | _ => none

namespace Conn

/-- The frames the event `e` hands to the transport. -/
def writes (s : Conn) : Event → List Bytes
  | .restoreNext cell _ =>
    match s.pc, s.current, s.todo.find? (·.wireId = cell) with
    | .restoring, none, some registration =>
      (tryEncodeFrame registration.messageType 0 1 registration.payload).toOption.toList
    | _, _, _ => []
  | .command written =>
    match s.pc, s.commands with
    | .session, command :: _ =>
      (s.loop.onCommand s.shared command written).effects.filterMap Effect.frame?
    | _, _ => []
  | .cancel =>
    match s.pc, s.cancellations with
    | .session, (id, _) :: _ => (s.loop.onCancel id).effects.filterMap Effect.frame?
    | _, _ => []
  | .inbound frame _ written =>
    match s.pc with
    | .session => (s.loop.onFrame s.shared frame written).2.effects.filterMap Effect.frame?
    | _ => []
  | _ => []

/-- The HELLO the event `e` ends a handshake with. -/
def greeting (s : Conn) : Event → Option Hello
  | .auth answer =>
    match s.pc, settleAuthentication s.shared answer with
    | .handshake, .ok _ => (answer.bind advertised).toOption
    | _, _ => none
  | _ => none

end Conn

/-- A connection with the HELLOs it accepted and the frames it wrote, each with
the transport. -/
structure Traffic where
  conn : Conn
  greetings : List (ℕ × Hello)
  frames : List (ℕ × Bytes)

namespace Traffic

def new (cfg : Config) : Traffic := ⟨.new cfg, [], []⟩

def step (cfg : Config) (t : Traffic) (e : Event) : Traffic where
  conn := t.conn.step cfg e
  greetings := t.greetings ++ ((t.conn.greeting e).map (t.conn.serial, ·)).toList
  frames := t.frames ++ (t.conn.writes e).map (t.conn.serial, ·)

end Traffic

/-! ## The condition and the property -/

/-- A registration that is replayed fits the limit of the transport's HELLO, if it
is encoded at all. -/
def ReplaysFit (t : Traffic) : Event → Prop
  | .restoreNext cell _ =>
    ∀ registration ∈ t.conn.todo.find? (·.wireId = cell),
      frameHeaderLen + registration.payload.length ≤ maxMessageSize →
      ∀ p ∈ t.greetings, p.1 = t.conn.serial →
        frameHeaderLen + registration.payload.length ≤ p.2.maxMessageBytes.toNat
  | _ => True

/-- Every frame was written after the HELLO of its transport, and within its limit. -/
def WithinLimits (t : Traffic) : Prop :=
  ∀ p ∈ t.frames, (∃ hello, (p.1, hello) ∈ t.greetings) ∧
    ∀ hello, (p.1, hello) ∈ t.greetings → p.2.length ≤ hello.maxMessageBytes.toNat

/-- The payload and the caller of a command that only its size can keep off the
wire: it is of this session, not canceled, and there is room for it. -/
def Conn.admits (s : Conn) : Command → Option (Bytes × Ticket)
  | .request id generation _ flags payload t =>
    if generation = s.loop.sessionGeneration ∧ id ∉ s.loop.canceled ∧
        flags &&& ~~~validFlags = 0 ∧
        s.loop.correlated.entries.length < s.shared.maxInFlight.toNat then some (payload, t)
    else none
  | .send _ generation _ payload t =>
    if generation = s.loop.sessionGeneration then some (payload, t) else none
  | _ => none

/-- An operation the session loop takes and that does not fit is answered with its
size, and writes nothing. -/
def OversizeRefused (cfg : Config) (t : Traffic) : Prop :=
  ∀ command commands payload ticket hello written, t.conn.pc = .session →
    t.conn.commands = command :: commands → t.conn.admits command = some (payload, ticket) →
    (t.conn.serial, hello) ∈ t.greetings →
    hello.maxMessageBytes.toNat < frameHeaderLen + payload.length →
      t.conn.writes (.command written) = [] ∧
      (t.conn.step cfg (.command written)).answers = t.conn.answers ++
        [(ticket, some (.error (.frameTooLarge (frameHeaderLen + payload.length))))]

/-! ## Encoders -/

section

variable {messageType : UInt16} {flags : UInt8} {correlationId : UInt64} {payload frame : Bytes}
  {sh : Shared}

theorem tryEncodeFrame_length (h : tryEncodeFrame messageType flags correlationId payload = .ok frame) :
    frame.length = frameHeaderLen + payload.length := by
  obtain ⟨rfl, -, -⟩ := tryEncodeFrame_ok h
  simp [putU8, frameHeaderLen]
  omega

/-- What does not fit is refused with its size. -/
theorem encodeOutbound_oversize (hflags : flags &&& ~~~validFlags = 0)
    (hsize : min sh.maxMessageBytes.toNat maxMessageSize < frameHeaderLen + payload.length) :
    encodeOutbound sh messageType flags correlationId payload =
      .error (.frameTooLarge (frameHeaderLen + payload.length)) := by
  unfold encodeOutbound
  cases henc : tryEncodeFrame messageType flags correlationId payload with
  | error e =>
    have he : e = .frameTooLarge (frameHeaderLen + payload.length) := by
      simp only [tryEncodeFrame] at henc
      split at henc
      · cases henc
        rfl
      · simp only [hflags, ne_eq, not_true_eq_false, if_false] at henc
        cases henc
    rw [he]
    rfl
  | ok f =>
    have hlen := tryEncodeFrame_length henc
    have hmax := (tryEncodeFrame_ok henc).2.1
    have hbig : f.length > sh.maxMessageBytes.toNat := by omega
    simp only [bind, Except.bind, hbig, if_true, throw, throwThe, MonadExceptOf.throw]
    rw [hlen]

end

/-! ## The frames of a step -/

namespace Conn

variable {cfg : Config} {s : Conn}

theorem transport?_obs (serial : ℕ) (origin : Origin) (l : List Effect) :
    (l.filterMap (obs? serial origin)).filterMap Obs.transport? =
      (l.filterMap Effect.frame?).map fun _ => serial := by
  induction l with
  | nil => rfl
  | cons e l ih => cases e <;> simp [obs?, Effect.frame?, Obs.transport?, List.filterMap_cons, ih]

theorem transport?_buried (s : Conn) (c : Command) :
    (s.buried c).filterMap Obs.transport? = [] := by
  unfold buried
  repeat' split
  all_goals rfl

theorem transport?_releases (cause : Ticket) (l : List Effect) :
    (releases cause l).filterMap Obs.transport? = [] := by
  rw [releases, List.filterMap_filterMap]
  refine List.filterMap_eq_nil_iff.2 fun e _ => ?_
  cases e <;> rfl

theorem transport?_deliveries (s : Conn) (frame : Bytes) (answers : Option ℕ) (l : List Effect) :
    (s.deliveries frame answers l).filterMap Obs.transport? = [] := by
  rw [deliveries, List.filterMap_filterMap]
  refine List.filterMap_eq_nil_iff.2 fun e _ => ?_
  split <;> rfl

/-- Outside a session only a replay writes, in the restore phase. -/
theorem writes_other (hpc : s.pc ≠ .session) {e : Event} {frame : Bytes} (h : frame ∈ s.writes e) :
    s.pc = .restoring ∧ ∃ cell written registration, e = .restoreNext cell written ∧
      s.todo.find? (·.wireId = cell) = some registration ∧
      tryEncodeFrame registration.messageType 0 1 registration.payload = .ok frame := by
  cases e with
  | restoreNext cell written =>
    simp only [writes] at h
    split at h
    · rename_i registration hres _ hfind
      refine ⟨hres, cell, written, registration, rfl, hfind, ?_⟩
      cases henc : tryEncodeFrame registration.messageType 0 1 registration.payload with
      | error e => simp [henc, Except.toOption] at h
      | ok f =>
        simp only [henc, Except.toOption, Option.toList_some, List.mem_singleton] at h
        rw [h]
    · cases h
  | command written =>
    simp only [writes] at h
    split at h
    · exact absurd (by assumption) hpc
    · cases h
  | cancel =>
    simp only [writes] at h
    split at h
    · exact absurd (by assumption) hpc
    · cases h
  | inbound frame' answers written =>
    simp only [writes] at h
    cases h
  | _ => cases h

theorem writes_eq_nil (hpc : s.pc ≠ .session) {e : Event}
    (he : ∀ cell written, e ≠ .restoreNext cell written) : s.writes e = [] := by
  refine List.eq_nil_iff_forall_not_mem.2 fun frame h => ?_
  obtain ⟨-, cell, written, -, rfl, -⟩ := writes_other hpc h
  exact he cell written rfl

/-- **The frames of a step are those the log says it wrote.** -/
theorem writes_logged (cfg : Config) (s : Conn) (e : Event) :
    (s.step cfg e).log.filterMap Obs.transport? =
      s.log.filterMap Obs.transport? ++ (s.writes e).map fun _ => s.serial := by
  cases e with
  | command written =>
    -- outside the session loop a command writes nothing and is not served
    by_cases hpc : s.pc = .session
    · cases hcs : s.commands with
      | nil => simp [step, command, writes, hpc, hcs]
      | cons c cs =>
        simp only [step, command, writes, hpc, hcs]
        cases c <;> simp only [supStep, turn_eq, List.filterMap_append, transport?_obs,
          transport?_buried, List.append_nil]
    · rw [writes_eq_nil hpc (by simp), step, command]
      split
      · exact absurd (by assumption) hpc
      · simp
  | cancel =>
    by_cases hpc : s.pc = .session
    · cases hcan : s.cancellations with
      | nil => simp [step, cancel, writes, hpc, hcan]
      | cons p rest =>
        simp only [step, cancel, writes, hpc, hcan, turn_eq, List.filterMap_append, transport?_obs,
          transport?_releases, List.append_nil]
    · rw [writes_eq_nil hpc (by simp), step, cancel]
      split
      · exact absurd (by assumption) hpc
      · simp
  | inbound frame answers written =>
    by_cases hpc : s.pc = .session
    · simp only [step, inbound, writes, hpc, turn_eq, read, List.filterMap_append, transport?_obs,
        transport?_deliveries, List.append_nil]
      simp [Obs.transport?]
    · rw [writes_eq_nil hpc (by simp), step, inbound]
      split
      · exact absurd (by assumption) hpc
      · simp
  | readError | hangup =>
    simp only [step, readError, hangup, writes]
    split
    all_goals simp [supStep, turn_eq, transport?_obs, Loop.onReadError, Loop.onHangup, Loop.finish]
  | restoreNext cell written =>
    -- the write of a replay is logged even if it fails
    by_cases hpc : s.pc = .restoring
    · cases hcur : s.current with
      | some registration => simp [step, restoreNext, writes, hpc, hcur]
      | none =>
        cases hfind : s.todo.find? (·.wireId = cell) with
        | none => simp [step, restoreNext, writes, hpc, hcur, hfind]
        | some registration =>
          simp only [step, restoreNext, writes, hpc, hcur, hfind]
          cases tryEncodeFrame registration.messageType 0 1 registration.payload with
          | error e => simp [Except.toOption]
          | ok frame => cases written <;> simp [Except.toOption, wrote, Obs.transport?]
    · have hw : s.writes (.restoreNext cell written) = [] := by
        simp only [writes]
        split
        · exact absurd (by assumption) hpc
        · rfl
      rw [hw, step, restoreNext]
      split
      · exact absurd (by assumption) hpc
      · simp
  | restoreRead frame answers =>
    simp only [step, restoreRead, writes]
    repeat' split
    all_goals simp [read, Obs.transport?]
  | advance =>
    have ha := advance_advanced cfg s
    simp only [step]
    generalize s.advance cfg = s' at ha
    cases ha <;> simp [writes]
  | allocate kind messageType payload =>
    simp only [step, allocate]
    split <;> simp [writes]
  | stamp t | enqueue t | resume t | abandon t | receive | restored | requestClose | auth answer
  | dial result | restoreFail | connect | close =>
    simp only [step, stamp, enqueue, resume, abandon, dropGuard, receive, dropCommands, restored,
      requestClose, auth, dial, restoreFail, push]
    repeat' split
    all_goals simp [writes, supStep, endCall, bump]
  | register | deactivate | token | wake => simp [step, writes, register, supStep]

/-- A frame of a session is within the limit in force there. -/
theorem writes_session (hn : s.negotiated) (hpc : s.pc = .session) {e : Event} {frame : Bytes}
    (h : frame ∈ s.writes e) : frame.length ≤ s.shared.maxMessageBytes.toNat := by
  obtain ⟨hcap, hcorr, hl⟩ := (negotiated_iff hpc).1 hn
  cases e with
  | command written =>
    simp only [writes, hpc] at h
    split at h
    · rename_i c cs _ _
      cases c with
      | request id generation messageType flags payload t =>
        have hreq := Loop.onRequest_requested (l := s.loop) hcorr id generation messageType flags
          payload t written
        simp only [Loop.onCommand] at h
        generalize s.loop.onRequest s.shared id generation messageType flags payload t written =
          turn at hreq h
        -- what is written was encoded under the negotiated limit
        cases hreq with
        | stale => cases h
        | refused _ hw =>
          rw [hw] at h
          cases h
        | written _ _ henc hw =>
          rw [hw, List.mem_singleton] at h
          exact h ▸ (encodeOutbound_ok henc).2
        | failed _ henc hw =>
          rw [hw, List.mem_singleton] at h
          exact h ▸ (encodeOutbound_ok henc).2
      | send id generation messageType payload t =>
        obtain ⟨effects, heq, hw⟩ := Loop.onSend_sent s.shared s.loop id generation messageType
          payload t written
        simp only [Loop.onCommand, heq, Loop.next] at h
        rcases hw with hw | ⟨frame', -, henc, hw⟩
        · rw [hw] at h
          cases h
        · rw [hw, List.mem_singleton] at h
          exact h ▸ (encodeOutbound_ok henc).2
      | connect t => cases h
      | close t =>
        simp only [Loop.onCommand, Loop.finish, List.filterMap_append, Loop.frame?_failAll] at h
        cases h
    · cases h
  | cancel =>
    simp only [writes, hpc] at h
    split at h
    · rw [onCancel_silent hl] at h
      cases h
    · cases h
  | inbound frame' answers written =>
    simp only [writes, hpc, onFrame_silent hl hcap] at h
    cases h
  | restoreNext cell written =>
    simp only [writes, hpc] at h
    cases h
  | _ => cases h


/-- An admitted command that does not fit is refused with its size. -/
theorem command_oversize (hn : s.negotiated) (hpc : s.pc = .session) {c : Command}
    {cs : List Command} (hcs : s.commands = c :: cs) {payload : Bytes} {t : Ticket}
    (hadm : s.admits c = some (payload, t))
    (hsize : min s.shared.maxMessageBytes.toNat maxMessageSize < frameHeaderLen + payload.length)
    (written : Result Unit) :
    s.writes (.command written) = [] ∧
      (s.step cfg (.command written)).answers = s.answers ++
        [(t, some (.error (.frameTooLarge (frameHeaderLen + payload.length))))] := by
  obtain ⟨-, hcorr, -⟩ := (negotiated_iff hpc).1 hn
  cases c with
  | connect t | close t => cases hadm
  | request id generation messageType flags payload' t' =>
    simp only [admits] at hadm
    split at hadm
    · rename_i h
      obtain ⟨hgen, hcan, hflags, hroom⟩ := h
      cases hadm
      -- the size is checked after the generation, the tombstones and the room
      have hturn : s.loop.onCommand s.shared (.request id generation messageType flags payload t)
          written = { s.loop with canceled := s.loop.canceled.erase id }.next
            [.respond t (.error (.frameTooLarge (frameHeaderLen + payload.length)))] := by
        simp only [Loop.onCommand, Loop.onRequest, hgen, ne_eq, not_true_eq_false, if_false, hcan,
          hcorr, if_true, Loop.requestCorrelated, not_le.2 hroom, Loop.refuse,
          encodeOutbound_oversize hflags hsize, Loop.next, List.nil_append]
      simp [writes, step, command, hpc, hcs, hturn, turn_eq, Loop.next, Effect.frame?, answer?]
    · cases hadm
  | send id generation messageType payload' t' =>
    simp only [admits] at hadm
    split at hadm
    · rename_i hgen
      cases hadm
      have hturn : s.loop.onCommand s.shared (.send id generation messageType payload t) written =
          s.loop.next
            [.acknowledge t (.error (.frameTooLarge (frameHeaderLen + payload.length)))] := by
        simp only [Loop.onCommand, Loop.onSend, hgen, ne_eq, not_true_eq_false, if_false,
          encodeOutbound_oversize (by decide : (0 : UInt8) &&& ~~~validFlags = 0) hsize]
      simp [writes, step, command, hpc, hcs, hturn, turn_eq, Loop.next, Effect.frame?, answer?,
        Except.map]
    · cases hadm

end Conn

/-! ## Runs -/

/-- The limit in force is that of the one HELLO of the transport, and frames come
after it. -/
structure SizeInv (t : Traffic) : Prop where
  negotiated : t.conn.negotiated
  past : ∀ p ∈ t.greetings, p.1 ≤ t.conn.serial
  fresh : t.conn.stretch = .handshaking → ∀ p ∈ t.greetings, p.1 < t.conn.serial
  limit : t.conn.shared.capabilities ≠ 0 → ∃ hello, (t.conn.serial, hello) ∈ t.greetings ∧
    t.conn.shared.maxMessageBytes.toNat = min hello.maxMessageBytes.toNat maxMessageSize ∧
    ∀ hello', (t.conn.serial, hello') ∈ t.greetings → hello' = hello
  within : WithinLimits t

namespace Traffic

variable {cfg : Config} {t : Traffic}

theorem sizeInv_new (cfg : Config) : SizeInv (.new cfg) where
  negotiated := Conn.negotiated_new cfg
  past := by simp [new]
  fresh := by simp [new]
  limit := fun h => absurd rfl h
  within := by simp [WithinLimits, new]

/-- The frames of a step are within the limit of the transport's HELLO. -/
theorem writes_within (h : SizeInv t) {e : Event} (hfit : ReplaysFit t e) {frame : Bytes}
    (hw : frame ∈ t.conn.writes e) :
    (∃ hello, (t.conn.serial, hello) ∈ t.greetings) ∧
      ∀ hello, (t.conn.serial, hello) ∈ t.greetings →
        frame.length ≤ hello.maxMessageBytes.toNat := by
  by_cases hpc : t.conn.pc = .session
  · obtain ⟨hcap, -, -⟩ := (Conn.negotiated_iff hpc).1 h.negotiated
    obtain ⟨hello, hmem, hmax, honly⟩ := h.limit hcap
    refine ⟨⟨hello, hmem⟩, fun hello' hmem' => ?_⟩
    have hlen := Conn.writes_session h.negotiated hpc hw
    rw [honly hello' hmem']
    omega
  · obtain ⟨hres, cell, written, registration, rfl, hfind, henc⟩ := Conn.writes_other hpc hw
    obtain ⟨hcap, -⟩ := (Conn.negotiated_iff hres).1 h.negotiated
    obtain ⟨hello, hmem, -, -⟩ := h.limit hcap
    refine ⟨⟨hello, hmem⟩, fun hello' hmem' => ?_⟩
    have hsize := (tryEncodeFrame_ok henc).2.1
    rw [tryEncodeFrame_length henc]
    exact hfit registration hfind hsize _ hmem' rfl

/-- Only an accepted HELLO is a greeting. -/
theorem greeting_eq_none {s : Conn} {e : Event}
    (h : ∀ answer shared, e = .auth answer → s.pc = .handshake →
      settleAuthentication s.shared answer = .ok shared → False) : s.greeting e = none := by
  unfold Conn.greeting
  split
  · split
    · rename_i hpc hok
      exact (h _ _ rfl hpc hok).elim
    · rfl
  · rfl

theorem sizeInv_greeted (h : SizeInv t) {answer : Result Bytes} (hpc : t.conn.pc = .handshake)
    (hok : settleAuthentication t.conn.shared answer = .ok (t.conn.step cfg (.auth answer)).shared)
    (hserial : (t.conn.step cfg (.auth answer)).serial = t.conn.serial) :
    SizeInv (t.step cfg (.auth answer)) := by
  have hold : ∀ p ∈ t.greetings, p.1 < t.conn.serial := h.fresh (by rw [Conn.stretch, hpc]; rfl)
  have hn : (t.conn.step cfg (.auth answer)).negotiated :=
    Conn.negotiated_step t.conn (.auth answer) h.negotiated
  obtain ⟨mask, hello, had, hshared⟩ := settleAuthentication_ok hok
  have hgreet : t.conn.greeting (.auth answer) = some hello := by
    simp only [Conn.greeting, hpc, hok, had]
    rfl
  -- the new HELLO is the only one of its transport
  have hmem : ∀ p, p ∈ (t.step cfg (.auth answer)).greetings →
      p ∈ t.greetings ∨ p = (t.conn.serial, hello) := by
    intro p hp
    simpa [step, hgreet] using hp
  have hmax : (t.conn.step cfg (.auth answer)).shared.maxMessageBytes.toNat =
      min hello.maxMessageBytes.toNat maxMessageSize := by
    rw [hshared]
    simp only [UInt64.toNat_ofNat']
    have := hello.maxMessageBytes.toNat_lt
    omega
  have hcap : (t.conn.step cfg (.auth answer)).shared.capabilities ≠ 0 := by
    intro h0
    have hcorr := correlation_of_hello mask
    rw [hshared] at h0
    simp only at h0
    rw [h0] at hcorr
    exact absurd hcorr (by decide)
  refine ⟨hn, fun p hp => ?_, fun hst => ?_, fun _ => ⟨hello, ?_, hmax, fun hello' hp => ?_⟩,
    fun p hp => ?_⟩
  · show p.1 ≤ (t.conn.step cfg (.auth answer)).serial
    rw [hserial]
    rcases hmem p hp with hp | rfl
    · exact h.past p hp
    · exact le_rfl
  · -- the handshake is over
    have hst' : (t.conn.step cfg (.auth answer)).stretch = .handshaking := hst
    rw [Conn.negotiated, hst'] at hn
    exact absurd hn hcap
  · show ((t.conn.step cfg (.auth answer)).serial, hello) ∈ _
    rw [hserial]
    simp [step, hgreet]
  · -- the HELLOs of earlier transports have lower serials
    have hp' : (t.conn.serial, hello') ∈ (t.step cfg (.auth answer)).greetings := by
      rw [← hserial]
      exact hp
    rcases hmem _ hp' with hp' | heq
    · exact absurd (hold _ hp') (lt_irrefl _)
    · exact (Prod.mk.inj heq).2
  · have hp : p ∈ t.frames := by simpa [step, Conn.writes] using hp
    obtain ⟨⟨hello', hgreeted⟩, hwithin⟩ := h.within p hp
    refine ⟨⟨hello', List.mem_append_left _ hgreeted⟩, fun hello'' hp' => ?_⟩
    rcases hmem _ hp' with hp' | heq
    · exact hwithin _ hp'
    · -- a frame of this transport would have its HELLO before it
      have hlt : p.1 < t.conn.serial := hold _ hgreeted
      have heq' : p.1 = t.conn.serial := (Prod.mk.inj heq).1
      omega

/-- A step that accepts no HELLO. -/
theorem sizeInv_other (h : SizeInv t) {e : Event} (hfit : ReplaysFit t e)
    (hg : t.conn.greeting e = none) (hserial : t.conn.serial ≤ (t.conn.step cfg e).serial)
    (hfresh : (t.conn.step cfg e).stretch = .handshaking →
      t.conn.stretch = .handshaking ∨ t.conn.serial < (t.conn.step cfg e).serial)
    (hlimit : (t.conn.step cfg e).shared.capabilities ≠ 0 →
      (t.conn.step cfg e).serial = t.conn.serial ∧
      (t.conn.step cfg e).shared.maxMessageBytes = t.conn.shared.maxMessageBytes ∧
      t.conn.shared.capabilities ≠ 0) : SizeInv (t.step cfg e) := by
  have hgreet : (t.step cfg e).greetings = t.greetings := by simp [step, hg]
  refine ⟨Conn.negotiated_step t.conn e h.negotiated, fun p hp => ?_, fun hst p hp => ?_,
    fun hcap => ?_, fun p hp => ?_⟩
  · rw [hgreet] at hp
    exact le_trans (h.past p hp) hserial
  · rw [hgreet] at hp
    rcases hfresh hst with hst | hlt
    · exact lt_of_lt_of_le (h.fresh hst p hp) hserial
    · exact lt_of_le_of_lt (h.past p hp) hlt
  · obtain ⟨hs, hmax, hcap⟩ := hlimit hcap
    obtain ⟨hello, hmem, hlim, honly⟩ := h.limit hcap
    rw [hgreet]
    exact ⟨hello, hs ▸ hmem, hmax ▸ hlim, hs ▸ honly⟩
  · rw [hgreet]
    simp only [step, List.mem_append, List.mem_map] at hp
    rcases hp with hp | ⟨frame, hw, rfl⟩
    · exact h.within p hp
    · exact writes_within h hfit hw

theorem sizeInv_step (t : Traffic) (e : Event) (h : SizeInv t) (hfit : ReplaysFit t e) :
    SizeInv (t.step cfg e) := by
  by_cases hacc : ∃ answer shared, e = .auth answer ∧ t.conn.pc = .handshake ∧
      settleAuthentication t.conn.shared answer = .ok shared
  · obtain ⟨answer, shared, rfl, hpc, hok⟩ := hacc
    have hshared : (t.conn.step cfg (.auth answer)).shared = shared := by
      simp only [Conn.step, Conn.auth, hpc, hok]
    have hserial : (t.conn.step cfg (.auth answer)).serial = t.conn.serial := by
      simp only [Conn.step, Conn.auth, hpc, hok, Conn.supStep]
    exact sizeInv_greeted h hpc (hshared ▸ hok) hserial
  · -- no other step accepts a HELLO
    have hg : t.conn.greeting e = none :=
      greeting_eq_none fun answer shared he hpc hok => hacc ⟨answer, shared, he, hpc, hok⟩
    cases Conn.atomics_step cfg t.conn e h.negotiated with
    | greeted he hpc hok => exact (hacc ⟨_, _, he, hpc, hok⟩).elim
    -- a new transport has no HELLO yet, and its limits do not count
    | dialed _ _ hserial hcap =>
      exact sizeInv_other h hfit hg (by omega) (fun _ => .inr (by omega)) fun h0 => absurd hcap h0
    | kept hserial hmax hcap =>
      refine sizeInv_other h hfit hg (by omega) (fun hst => ?_) fun h0 => ⟨hserial, hmax, ?_⟩
      · rcases Conn.handshaking_before hst with hst | ⟨rfl, hpc⟩
        · exact .inl hst
        · right
          simp [Conn.step, Conn.dial, hpc]
      · rcases hcap with hcap | hcap
        · exact hcap ▸ h0
        · exact absurd hcap h0

theorem oversizeRefused (h : SizeInv t) : OversizeRefused cfg t := by
  intro command commands payload ticket hello written hpc hcs hadm hmem hsize
  obtain ⟨hcap, -, -⟩ := (Conn.negotiated_iff hpc).1 h.negotiated
  obtain ⟨hello', -, hmax, honly⟩ := h.limit hcap
  rw [honly hello hmem] at hsize
  exact Conn.command_oversize h.negotiated hpc hcs hadm (by omega) written

end Traffic

/-- **The size of what a session writes.** -/
theorem frames_within_limit (cfg : Config) (es : List Event)
    (h : Along (Traffic.step cfg) ReplaysFit (.new cfg) es) :
    WithinLimits (run (Traffic.step cfg) (.new cfg) es) ∧
      OversizeRefused cfg (run (Traffic.step cfg) (.new cfg) es) := by
  have hinv : SizeInv (run (Traffic.step cfg) (.new cfg) es) :=
    along_inv (fun t e ht hfit => Traffic.sizeInv_step t e ht hfit) (Traffic.sizeInv_new cfg) h
  exact ⟨hinv.within, Traffic.oversizeRefused hinv⟩

/-! ## A limit that shrinks -/

instance ReplaysFit.decidable (t : Traffic) : ∀ e, Decidable (ReplaysFit t e)
  | .restoreNext cell _ => inferInstanceAs (Decidable (
      ∀ registration ∈ t.conn.todo.find? (·.wireId = cell),
        frameHeaderLen + registration.payload.length ≤ maxMessageSize →
        ∀ p ∈ t.greetings, p.1 = t.conn.serial →
          frameHeaderLen + registration.payload.length ≤ p.2.maxMessageBytes.toNat))
  | .allocate .. | .stamp _ | .enqueue _ | .resume _ | .abandon _ | .connect | .requestClose
  | .close | .register .. | .deactivate _ | .advance | .receive | .hangup | .token _ | .dial _
  | .auth _ | .restoreRead .. | .restoreFail | .restored | .wake | .command _ | .cancel
  | .inbound .. | .readError => inferInstanceAs (Decidable True)

/-- A HELLO that takes frames of at most `size` bytes. -/
def sizedHello (size : UInt32) : Bytes :=
  ((Wire3.encode (putU16 3 ++ putU32 0 ++ putU32 size ++ putU32 8 ++ putU64 1) [(1, [0, 0])]).bind
    fun payload => tryEncodeFrame MessageType.hello extensionsPresent 0 payload).toOption.getD []

/-- A registration of twenty bytes, the loss of its session, and the replay on one
that takes frames of at most `size` bytes. -/
def replayRun (size : UInt32) : List Event :=
  firstSession 8 ++ [.register 107 (List.replicate 20 0) 1 (fun _ => .ok 1), .readError, .advance,
    .advance, .wake, .advance, .token (.ok ()), .dial (.ok ()), .auth (.ok (sizedHello size)),
    .advance, .restoreNext 0 (.ok ())]

theorem frames_within_limit_replayed :
    WithinLimits (run (Traffic.step ⟨4, ⟨true, 3⟩⟩) (.new ⟨4, ⟨true, 3⟩⟩) (replayRun 64)) ∧
      OversizeRefused ⟨4, ⟨true, 3⟩⟩
        (run (Traffic.step ⟨4, ⟨true, 3⟩⟩) (.new ⟨4, ⟨true, 3⟩⟩) (replayRun 64)) :=
  frames_within_limit _ _ (by decide +kernel)

/-- The second session takes frames of at most 32 bytes, and the replay writes one
of 35. -/
theorem replay_over_limit :
    (∃ p ∈ (run (Traffic.step ⟨4, ⟨true, 3⟩⟩) (.new ⟨4, ⟨true, 3⟩⟩) (replayRun 32)).frames,
      ∃ q ∈ (run (Traffic.step ⟨4, ⟨true, 3⟩⟩) (.new ⟨4, ⟨true, 3⟩⟩) (replayRun 32)).greetings,
        q.1 = p.1 ∧ q.2.maxMessageBytes = 32 ∧ p.2.length = 35) ∧
      ¬WithinLimits (run (Traffic.step ⟨4, ⟨true, 3⟩⟩) (.new ⟨4, ⟨true, 3⟩⟩) (replayRun 32)) := by
  have hover : ∃ p ∈ (run (Traffic.step ⟨4, ⟨true, 3⟩⟩) (.new ⟨4, ⟨true, 3⟩⟩) (replayRun 32)).frames,
      ∃ q ∈ (run (Traffic.step ⟨4, ⟨true, 3⟩⟩) (.new ⟨4, ⟨true, 3⟩⟩) (replayRun 32)).greetings,
        q.1 = p.1 ∧ q.2.maxMessageBytes = 32 ∧ p.2.length = 35 := by
    decide +kernel
  refine ⟨hover, fun hwithin => ?_⟩
  obtain ⟨p, hp, q, hq, heq, hmax, hlen⟩ := hover
  have hle := (hwithin p hp).2 q.2 (heq ▸ hq)
  rw [hmax, hlen] at hle
  exact absurd hle (by decide)

end Fitz

import Fitz.Model.Handle
import Fitz.Proof.Callers
import Fitz.Proof.Envelope

/-!
# The capabilities of a session

The list of a HELLO is folded into a mask, packed with the version into one word,
and read back by `require_capability`, `capability_ids` and `protocol_version`.
`capabilities_negotiated`: in every run, while a session lives these tell what its
own HELLO listed, and from the start of an `open_session` until a HELLO is accepted
no capability is there.
-/

namespace Fitz

open Machine Wire3

/-! ## The word -/

/-- What an accepted HELLO leaves in the word. -/
def capabilityWord (mask : UInt16) : UInt64 :=
  mask.toUInt64 <<< 48 ||| (3 : UInt16).toUInt64 <<< 32

/-- The readers of the word tell what the list held. -/
structure Tells (sh : Shared) (ids : List UInt32) : Prop where
  required : ∀ id, requireCapability sh id = .ok () ↔ (id = 1 ∨ id = 2) ∧ id ∈ ids
  listed : capabilityIds sh = [1, 2].filter (· ∈ ids)
  version : protocolVersion sh = 3
  bits : capabilityBits sh = 0

theorem requireCapability_iff {sh : Shared} {id : UInt32} :
    requireCapability sh id = .ok () ↔ (id = 1 ∨ id = 2) ∧ protocolVersion sh = 3 ∧
      sh.capabilities >>> 48 &&& (1 <<< id.toUInt64) ≠ 0 := by
  unfold requireCapability
  split
  · rename_i h
    exact ⟨fun _ => h, fun _ => rfl⟩
  · rename_i h
    constructor
    · intro herror
      cases herror
    · intro hall
      exact absurd hall h

theorem tells_of_word {sh : Shared} {ids : List UInt32}
    (h : sh.capabilities = capabilityWord (capabilityMask ids)) : Tells sh ids := by
  have hversion : protocolVersion sh = 3 := by
    unfold protocolVersion
    rw [h]
    unfold capabilityMask
    by_cases h1 : (1 : UInt32) ∈ ids <;> by_cases h2 : (2 : UInt32) ∈ ids <;> simp [h1, h2] <;> decide
  have hbits : capabilityBits sh = 0 := by
    unfold capabilityBits
    rw [h]
    unfold capabilityMask
    by_cases h1 : (1 : UInt32) ∈ ids <;> by_cases h2 : (2 : UInt32) ∈ ids <;> simp [h1, h2] <;> decide
  have hbit : ∀ id : UInt32, id = 1 ∨ id = 2 →
      (sh.capabilities >>> 48 &&& (1 <<< id.toUInt64) ≠ 0 ↔ id ∈ ids) := by
    rw [h]
    unfold capabilityMask
    rintro id (rfl | rfl) <;> by_cases h1 : (1 : UInt32) ∈ ids <;>
      by_cases h2 : (2 : UInt32) ∈ ids <;> simp [h1, h2] <;> decide
  refine ⟨fun id => ?_, ?_, hversion, hbits⟩
  · rw [requireCapability_iff]
    constructor
    · rintro ⟨hid, -, hset⟩
      exact ⟨hid, (hbit id hid).1 hset⟩
    · rintro ⟨hid, hmem⟩
      exact ⟨hid, hversion, (hbit id hid).2 hmem⟩
  · unfold capabilityIds
    apply List.filter_congr
    intro id hid
    have hid' : id = 1 ∨ id = 2 := by simpa using hid
    exact decide_eq_decide.2 (hbit id hid')

/-- Where the word is zero nothing was negotiated. -/
theorem requireCapability_zero {sh : Shared} (h : sh.capabilities = 0) (id : UInt32) :
    requireCapability sh id ≠ .ok () := by
  intro hok
  obtain ⟨-, hversion, -⟩ := requireCapability_iff.1 hok
  rw [protocolVersion, h] at hversion
  exact absurd hversion (by decide)

/-! ## The HELLO of a session -/

/-- The frame is a HELLO with the capability list `ids`. -/
def Lists (frame : Bytes) (ids : List UInt32) : Prop :=
  ∃ header core fields value, decodeFrameHeader frame = .ok header ∧
    header.messageType = MessageType.hello ∧
    IsEnvelope (frame.drop header.payloadStart) core fields ∧
    fields.filter (·.1 = 1) = [(1, value)] ∧ IsCapabilityList value ids

/-- A HELLO that was accepted has a list, and its mask is in the word. -/
theorem settleAuthentication_lists {sh sh' : Shared} {answer : Result Bytes}
    (h : settleAuthentication sh answer = .ok sh') :
    ∃ frame ids, answer = .ok frame ∧ Lists frame ids ∧
      sh'.capabilities = capabilityWord (capabilityMask ids) := by
  obtain ⟨frame, header, core, mask, rfl, hh, hd, hhello, happly⟩ := settleAuthentication_frame h
  obtain ⟨hello, -, rfl⟩ := applyServerHello_ok happly
  have hflags : header.flags &&& extensionsPresent ≠ 0 := by
    intro h0
    rw [Wire3.decode, if_pos h0, hhello] at hd
    cases hd
  obtain ⟨fields, henvelope, hlist⟩ := (decode_ok_iff hflags).1 hd
  rw [if_pos hhello] at hlist
  obtain ⟨value, ids, hone, hvalue, rfl⟩ := hlist
  exact ⟨frame, ids, rfl, ⟨header, core, fields, value, hh, hhello, henvelope, hone, hvalue⟩, rfl⟩

/-! ## Runs -/

namespace Conn

/-- A session lives from its accepted HELLO until it is lost or closed. -/
def Live (s : Conn) : Prop :=
  s.stretch = .opened ∨ s.stretch = .restoring ∨ s.stretch = .ready ∨ s.stretch = .announced ∨
    s.stretch = .session

/-- The HELLO frame the event `e` has accepted. -/
def accepts (s : Conn) : Event → Option Bytes
  | .auth answer =>
    match s.pc, settleAuthentication s.shared answer with
    | .handshake, .ok _ => answer.toOption
    | _, _ => none
  | _ => none

/-- The event `e` starts an `open_session`. -/
def opens (cfg : Config) (s : Conn) (e : Event) : Bool :=
  s.pc == .checking && (s.step cfg e).pc == .token

end Conn

/-- A connection with the HELLO it accepted last and its transport, and whether an
`open_session` was started since. -/
structure Greeted where
  conn : Conn
  hello : Option (ℕ × Bytes)
  opening : Bool

namespace Greeted

def new (cfg : Config) : Greeted := ⟨.new cfg, none, false⟩

def step (cfg : Config) (t : Greeted) (e : Event) : Greeted where
  conn := t.conn.step cfg e
  hello := ((t.conn.accepts e).map (t.conn.serial, ·)).or t.hello
  opening := (t.opening || t.conn.opens cfg e) && (t.conn.accepts e).isNone

/-- What the capabilities are, and what the next step does not do to them. -/
structure CapabilitiesHold (cfg : Config) (t : Greeted) : Prop where
  /-- a live session tells what its own HELLO listed -/
  live : t.conn.Live → ∃ frame ids, t.hello = some (t.conn.serial, frame) ∧ Lists frame ids ∧
    Tells t.conn.shared ids
  /-- nothing is negotiated while a session opens -/
  closed : t.opening = true → ∀ id, requireCapability t.conn.shared id ≠ .ok ()
  /-- a later HELLO or rejection ends the session, and changes neither the
  capabilities nor the limits -/
  repeated : ∀ frame header answers written, t.conn.pc = .session →
    decodeFrameHeader frame = .ok header →
    header.messageType = MessageType.hello ∨ header.messageType = MessageType.connectRejected →
      (t.conn.step cfg (.inbound frame answers written)).shared = t.conn.shared ∧
      (t.conn.step cfg (.inbound frame answers written)).pc = .lost
  /-- a HELLO that is rejected changes nothing -/
  rejected : ∀ answer error, settleAuthentication t.conn.shared answer = .error error →
    (t.conn.step cfg (.auth answer)).shared = t.conn.shared

/-! ### The invariant -/

structure GreetedInv (t : Greeted) : Prop where
  negotiated : t.conn.negotiated
  word : t.conn.Live → ∃ frame ids, t.hello = some (t.conn.serial, frame) ∧ Lists frame ids ∧
    t.conn.shared.capabilities = capabilityWord (capabilityMask ids)
  opening : t.opening = true → t.conn.shared.capabilities = 0

variable {cfg : Config} {t : Greeted}

theorem greetedInv_new (cfg : Config) : GreetedInv (.new cfg) where
  negotiated := Conn.negotiated_new cfg
  word := by
    intro hlive
    rcases hlive with h | h | h | h | h <;> cases h
  opening := by
    intro h
    cases h

theorem accepts_eq_none {s : Conn} {e : Event}
    (h : ∀ answer shared, e = .auth answer → s.pc = .handshake →
      settleAuthentication s.shared answer = .ok shared → False) : s.accepts e = none := by
  unfold Conn.accepts
  split
  · split
    · rename_i hpc hok
      exact (h _ _ rfl hpc hok).elim
    · rfl
  · rfl

/-- The HELLO is accepted, and is the session's own. -/
theorem greetedInv_greeted (h : GreetedInv t) {answer : Result Bytes}
    (hpc : t.conn.pc = .handshake)
    (hok : settleAuthentication t.conn.shared answer = .ok (t.conn.step cfg (.auth answer)).shared)
    (hserial : (t.conn.step cfg (.auth answer)).serial = t.conn.serial) :
    GreetedInv (t.step cfg (.auth answer)) := by
  obtain ⟨frame, ids, rfl, hlists, hword⟩ := settleAuthentication_lists hok
  have hacc : t.conn.accepts (.auth (.ok frame)) = some frame := by
    simp only [Conn.accepts, hpc, hok]
    rfl
  refine ⟨Conn.negotiated_step _ _ h.negotiated, fun _ => ⟨frame, ids, ?_, hlists, hword⟩, ?_⟩
  · rw [step, hacc, hserial]
    rfl
  · intro hopening
    rw [step, hacc] at hopening
    simp at hopening

/-- A session that lives after another step lived before it. -/
theorem live_before {e : Event} (hacc : ∀ answer shared, e = .auth answer →
      t.conn.pc = .handshake → settleAuthentication t.conn.shared answer = .ok shared → False)
    (hlive : (t.conn.step cfg e).Live) : t.conn.Live := by
  have hst := Conn.stretch_step cfg t.conn e
  unfold Conn.Live at hlive ⊢
  generalize (t.conn.step cfg e).stretch = st at hst hlive
  cases hst with
  | same => exact hlive
  | idle | negotiating | dialed =>
    rcases hlive with h | h | h | h | h <;> cases h
  | greeted he hpc hok => exact (hacc _ _ he hpc hok).elim
  | collected _ hpc => exact .inl (by rw [Conn.stretch, hpc]; rfl)
  | restored _ hpc => exact .inr (.inl (by rw [Conn.stretch, hpc]; rfl))
  | announced _ hpc => exact .inr (.inr (.inl (by rw [Conn.stretch, hpc]; rfl)))
  | entered _ hpc => exact .inr (.inr (.inr (.inl (by rw [Conn.stretch, hpc]; rfl))))

/-- The word of a live session is not zero. -/
theorem capabilities_ne_zero {s : Conn} (hn : s.negotiated) (hlive : s.Live) :
    s.shared.capabilities ≠ 0 := by
  unfold Conn.negotiated at hn
  rcases hlive with h | h | h | h | h <;> rw [h] at hn <;> exact hn.1

theorem greetedInv_step (t : Greeted) (e : Event) (h : GreetedInv t) : GreetedInv (t.step cfg e) := by
  by_cases hacc : ∃ answer shared, e = .auth answer ∧ t.conn.pc = .handshake ∧
      settleAuthentication t.conn.shared answer = .ok shared
  · obtain ⟨answer, shared, rfl, hpc, hok⟩ := hacc
    have hshared : (t.conn.step cfg (.auth answer)).shared = shared := by
      simp only [Conn.step, Conn.auth, hpc, hok]
    have hserial : (t.conn.step cfg (.auth answer)).serial = t.conn.serial := by
      simp only [Conn.step, Conn.auth, hpc, hok, Conn.supStep]
    exact greetedInv_greeted h hpc (hshared ▸ hok) hserial
  have hnot : ∀ answer shared, e = .auth answer → t.conn.pc = .handshake →
      settleAuthentication t.conn.shared answer = .ok shared → False :=
    fun answer shared he hpc hok => hacc ⟨answer, shared, he, hpc, hok⟩
  have hn : (t.conn.step cfg e).negotiated := Conn.negotiated_step _ _ h.negotiated
  have hhello : (t.step cfg e).hello = t.hello := by
    rw [step, accepts_eq_none hnot]
    rfl
  refine ⟨hn, fun hlive => ?_, fun hopening => ?_⟩
  · have hbefore := live_before hnot hlive
    obtain ⟨frame, ids, hlast, hlists, hword⟩ := h.word hbefore
    have hne : (t.conn.step cfg e).shared.capabilities ≠ 0 := capabilities_ne_zero hn hlive
    cases Conn.atomics_step cfg t.conn e h.negotiated with
    | kept hserial _ hcap =>
      refine ⟨frame, ids, ?_, hlists, ?_⟩
      · rw [hhello, hlast]
        exact congrArg (fun serial => some (serial, frame)) hserial.symm
      · rw [← hword]
        exact hcap.resolve_right hne
    | dialed _ _ _ hcap => exact absurd hcap hne
    | greeted he hpc hok => exact (hnot _ _ he hpc hok).elim
  · have hopen : t.opening = true ∨ t.conn.opens cfg e = true := by
      rw [step, accepts_eq_none hnot] at hopening
      simpa using hopening
    rcases hopen with hopen | hopen
    · have hzero := h.opening hopen
      cases Conn.atomics_step cfg t.conn e h.negotiated with
      | kept _ _ hcap =>
        rw [hzero, or_self] at hcap
        exact hcap
      | dialed _ _ _ hcap => exact hcap
      | greeted he hpc hok => exact (hnot _ _ he hpc hok).elim
    · -- `open_session` clears the word before it awaits the token
      simp only [Conn.opens, Bool.and_eq_true, beq_iff_eq] at hopen
      exact (Conn.negotiated_iff hopen.2).1 hn

/-- In a session a HELLO, and a rejection, is an error. -/
theorem onFrame_control {sh : Shared} {frame : Bytes} {header : FrameHeader}
    (hcap : sh.capabilities ≠ 0) (hh : decodeFrameHeader frame = .ok header)
    (hkind : header.messageType = MessageType.hello ∨
      header.messageType = MessageType.connectRejected) (l : Loop) (written : Result Unit) :
    l.onFrame sh frame written = (sh, l.finish [] .disconnected) := by
  have herror : ∃ error, decodeIncoming sh frame = .error error := by
    cases hdec : decodeIncoming sh frame with
    | error error => exact ⟨error, rfl⟩
    | ok result =>
      exfalso
      unfold decodeIncoming at hdec
      split at hdec
      · cases hdec
      · cases hd : Wire3.decode (frame.drop header.payloadStart) header.messageType header.flags with
        | error error => simp [hh, hd, bind, Except.bind] at hdec
        | ok r =>
          simp only [hh, hd, Loop.applyServerHello_repeated hcap, bind, Except.bind] at hdec
          rcases hkind with hkind | hkind
          · rw [if_pos hkind] at hdec
            split at hdec <;> cases hdec
          · have hhello : ¬header.messageType = MessageType.hello := by rw [hkind]; decide
            have hgoaway : ¬header.messageType = MessageType.goaway := by rw [hkind]; decide
            rw [if_neg hhello, if_neg hgoaway, if_pos hkind] at hdec
            cases hdec
  obtain ⟨error, herror⟩ := herror
  unfold Loop.onFrame
  rw [herror]

theorem capabilitiesHold (h : GreetedInv t) : CapabilitiesHold cfg t where
  live := by
    intro hlive
    obtain ⟨frame, ids, hlast, hlists, hword⟩ := h.word hlive
    exact ⟨frame, ids, hlast, hlists, tells_of_word hword⟩
  closed := by
    intro hopening id
    exact requireCapability_zero (h.opening hopening) id
  repeated := by
    intro frame header answers written hpc hh hkind
    obtain ⟨hcap, -, -⟩ := (Conn.negotiated_iff hpc).1 h.negotiated
    have hframe := onFrame_control hcap hh hkind t.conn.loop written
    simp only [Conn.step, Conn.inbound, hpc, hframe, Conn.turn_eq]
    exact ⟨trivial, Conn.afterTurn_lost cfg hpc⟩
  rejected := by
    intro answer error herror
    simp only [Conn.step, Conn.auth, herror]
    split <;> rfl

end Greeted

/-- **Capabilities are what the session's own HELLO listed.** -/
theorem capabilities_negotiated (cfg : Config) (es : List Event) :
    Greeted.CapabilitiesHold cfg (run (Greeted.step cfg) (.new cfg) es) :=
  Greeted.capabilitiesHold
    (run_inv (fun t e => Greeted.greetedInv_step t e) (Greeted.greetedInv_new cfg) es)

end Fitz

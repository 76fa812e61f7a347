import Fitz.Proof.Stretches

/-!
# Every session is negotiated

The first invariant of a connection: from the accepted HELLO to the end of the
session the capability word is set and every request is correlated
(`negotiated_step`).
-/

namespace Fitz

/-! ## An accepted HELLO -/

/-- Version 3 in the capability word turns correlation on. -/
theorem correlation_of_hello (mask : UInt16) :
    (2 : UInt64) ≤ ((mask.toUInt64 <<< 48) ||| ((3 : UInt16).toUInt64 <<< 32)) >>> 32 := by
  rw [UInt64.le_iff_toNat_le]
  simp only [UInt64.toNat_shiftRight, UInt64.toNat_or]
  have h3 : ((3 : UInt16).toUInt64 <<< 32).toNat = 3 * 2 ^ 32 := by decide
  rw [h3, Nat.shiftRight_or_distrib]
  exact le_trans (by decide) Nat.right_le_or

/-- What an accepted HELLO leaves in the atomics. -/
theorem applyServerHello_ok {sh sh' : Shared} {payload : Bytes} {mask : UInt16}
    (h : applyServerHello sh payload mask = .ok sh') :
    ∃ hello, decodeHello payload = .ok hello ∧ sh' = { sh with
      capabilities := (mask.toUInt64 <<< 48) ||| ((3 : UInt16).toUInt64 <<< 32)
      maxMessageBytes := UInt64.ofNat (min hello.maxMessageBytes.toNat maxMessageSize)
      maxInFlight := min hello.maxInFlight.toUInt64 sh.maxInFlight } := by
  unfold applyServerHello at h
  split at h
  · cases h
  · cases hd : decodeHello payload with
    | error e => simp [hd, bind, Except.bind] at h
    | ok hello =>
      simp only [hd, bind, Except.bind, pure, Except.pure, throw, throwThe,
        MonadExceptOf.throw] at h
      split at h
      · cases h
      · rename_i hv
        cases h
        have hversion : hello.version = 3 := by
          simp only [Hello.valid, Bool.not_eq_true', Bool.not_eq_false, Bool.and_eq_true,
            beq_iff_eq] at hv
          exact hv.1.1.1.1
        exact ⟨hello, rfl, by rw [hversion]⟩

/-- A handshake succeeds on the frame of a HELLO alone. -/
theorem settleAuthentication_frame {sh sh' : Shared} {answer : Result Bytes}
    (h : settleAuthentication sh answer = .ok sh') :
    ∃ frame header payload mask, answer = .ok frame ∧ decodeFrameHeader frame = .ok header ∧
      Wire3.decode (frame.drop header.payloadStart) header.messageType header.flags =
        .ok (payload, mask) ∧
      header.messageType = MessageType.hello ∧ applyServerHello sh payload mask = .ok sh' := by
  unfold settleAuthentication at h
  split at h
  · cases h
  · cases h
  · rename_i frame
    cases hh : decodeFrameHeader frame with
    | error e => simp [hh, bind, Except.bind] at h
    | ok header =>
      simp only [hh, bind, Except.bind, processAuthFrame] at h
      cases hd : Wire3.decode (frame.drop header.payloadStart) header.messageType header.flags with
      | error e => simp [hd] at h
      | ok r =>
        obtain ⟨payload, mask⟩ := r
        simp only [hd] at h
        split at h
        · cases h
        · split at h
          · rename_i hhello
            exact ⟨frame, header, payload, mask, rfl, hh, hd, hhello, h⟩
          · exfalso
            split at h
            · cases hr : decodeRejected payload with
              | error e => simp [hr] at h
              | ok r =>
                simp only [hr] at h
                split at h <;> cases h
            · cases h

/-- A handshake that succeeds read a HELLO, and left it in the atomics. -/
theorem settleAuthentication_ok {sh sh' : Shared} {answer : Result Bytes}
    (h : settleAuthentication sh answer = .ok sh') :
    ∃ mask hello, answer.bind advertised = .ok hello ∧ sh' = { sh with
      capabilities := (mask : UInt16).toUInt64 <<< 48 ||| ((3 : UInt16).toUInt64 <<< 32)
      maxMessageBytes := UInt64.ofNat (min hello.maxMessageBytes.toNat maxMessageSize)
      maxInFlight := min hello.maxInFlight.toUInt64 sh.maxInFlight } := by
  obtain ⟨frame, header, payload, mask, rfl, hh, hd, -, happly⟩ := settleAuthentication_frame h
  obtain ⟨hello, hdec, rfl⟩ := applyServerHello_ok happly
  refine ⟨mask, hello, ?_, rfl⟩
  simp [Except.bind, advertised, hh, hd, hdec, bind]

namespace Conn

variable {cfg : Config} {s : Conn}

/-- What holds of the capability word and the maps, by stretch. -/
def Negotiated (sh : Shared) (l : Loop) : Stretch → Prop
  | .idle => True
  | .dialing | .handshaking => sh.capabilities = 0
  | .session => sh.capabilities ≠ 0 ∧ supervisorCorrelationEnabled sh = true ∧ l.Correlating
  | _ => sh.capabilities ≠ 0 ∧ supervisorCorrelationEnabled sh = true

def negotiated (s : Conn) : Prop := Negotiated s.shared s.loop s.stretch

theorem negotiated_iff {p : Pc} (hpc : s.pc = p) :
    s.negotiated ↔ Negotiated s.shared s.loop p.stretch := by
  rw [negotiated, stretch, hpc]

/-- A step within a stretch, or out of the session, that leaves the capability
word and the maps. -/
theorem Negotiated.stay {sh sh' : Shared} {l l' : Loop} {st st' : Stretch}
    (h : Negotiated sh l st) (hst : st' = st ∨ st' = .idle)
    (hcap : sh'.capabilities = sh.capabilities) (hl : st' = .session → l.Correlating → l'.Correlating) :
    Negotiated sh' l' st' := by
  rcases hst with rfl | rfl
  · cases st' <;> simp only [Negotiated, supervisorCorrelationEnabled, hcap] at h ⊢
    case session => exact ⟨h.1, h.2.1, hl rfl h.2.2⟩
    all_goals exact h
  · trivial

/-- The loop goes round in the same session, and still correlates. -/
structure GoesRound (l l' : Loop) : Prop where
  correlating : l'.Correlating
  sessionGeneration : l'.sessionGeneration = l.sessionGeneration

/-- A turn that does not go round loses the session. -/
theorem onCommand_goesRound {sh : Shared} {l : Loop} (hl : l.Correlating)
    (hcorr : supervisorCorrelationEnabled sh = true) (c : Command) (written : Result Unit) :
    GoesRound l (l.onCommand sh c written).loop ∨
      (l.onCommand sh c written).result = some .disconnected := by
  cases c with
  | request id generation messageType flags payload t =>
    have hreq := Loop.onRequest_requested (l := l) hcorr id generation messageType flags payload t
      written
    simp only [Loop.onCommand]
    generalize l.onRequest sh id generation messageType flags payload t written = turn at hreq
    cases hreq with
    | stale | refused | written => exact .inl ⟨⟨hl.pending, hl.queued⟩, rfl⟩
    | failed => exact .inr rfl
  | send id generation messageType payload t =>
    obtain ⟨effects, heq, -⟩ := Loop.onSend_sent sh l id generation messageType
      payload t written
    simp only [Loop.onCommand, heq]
    exact .inl ⟨hl, rfl⟩
  | connect t => exact .inl ⟨hl, rfl⟩
  | close t => exact .inl ⟨⟨rfl, rfl⟩, rfl⟩

theorem onCancel_goesRound {l : Loop} (hl : l.Correlating) (id : UInt64) :
    GoesRound l (l.onCancel id).loop := by
  have hc := Loop.onCancel_canceled hl id
  generalize l.onCancel id = turn at hc
  cases hc <;> exact ⟨⟨hl.pending, hl.queued⟩, rfl⟩

theorem onFrame_goesRound {sh : Shared} {l : Loop} (hl : l.Correlating)
    (hcap : sh.capabilities ≠ 0) (frame : Bytes) (written : Result Unit) :
    GoesRound l (l.onFrame sh frame written).2.loop ∨
      (l.onFrame sh frame written).2.result = some .disconnected := by
  have hf := (Loop.onFrame_framed hl hcap frame written).2
  generalize (l.onFrame sh frame written).2 = turn at hf
  cases hf with
  | ended => exact .inr rfl
  | ignored | published => exact .inl ⟨hl, rfl⟩
  | answered => exact .inl ⟨⟨hl.pending, hl.queued⟩, rfl⟩

/-- A turn of the live session. -/
theorem negotiated_turn (h : s.negotiated) (hpc : s.pc = .session) {t : Turn}
    (ht : t.loop.Correlating ∨ t.result = some .disconnected) {origin : Origin} :
    (s.turn cfg origin t).negotiated := by
  rw [turn_eq]
  rcases ht with ht | ht
  · exact h.stay (afterTurn_stretch cfg _ _) rfl (fun _ _ => ht)
  · have hidle : (afterTurn cfg s.task t.result).sup.pc.stretch = .idle := by
      rw [ht]
      exact afterTurn_disconnected cfg hpc
    exact h.stay (.inr hidle) rfl fun hs => absurd (hidle.symm.trans hs) (by simp)

theorem negotiated_supStep (h : s.negotiated) {e : SupEvent} (ha : e ≠ .advance)
    (hr : e ≠ .restored) (hauth : e ≠ .auth (.ok ())) (hdial : e ≠ .dial (.ok ())) :
    (s.supStep cfg e).negotiated :=
  h.stay (supStep_stretch ha hr hauth hdial) rfl fun _ => id

theorem negotiated_advance (h : s.negotiated) : (s.advance cfg).negotiated := by
  have ha := advance_advanced cfg s
  generalize s.advance cfg = s' at ha
  cases ha with
  | plain hst => exact h.stay hst rfl fun _ => id
  | negotiate h' => exact (negotiated_iff (p := .token) (by exact h')).2 rfl
  | collect hpc h' =>
    exact (negotiated_iff (p := .restoring) (by exact h')).2 ((negotiated_iff hpc).1 h)
  | restart hpc h' =>
    exact (negotiated_iff (p := .announcing) (by exact h')).2 ((negotiated_iff hpc).1 h)
  | enter hpc h' =>
    obtain ⟨hcap, hcorr⟩ := (negotiated_iff hpc).1 h
    exact (negotiated_iff (p := .session) (by exact h')).2 ⟨hcap, hcorr, Loop.correlating_new _⟩
  | lose h' => exact h.stay (.inr h') rfl fun _ => id

theorem negotiated_auth (h : s.negotiated) (answer : Result Bytes) :
    (s.auth cfg answer).negotiated := by
  unfold auth
  split
  · split
    · exact negotiated_supStep h (by simp) (by simp) (by simp) (by simp)
    · rename_i hpc _ shared hok
      obtain ⟨mask, hello, -, rfl⟩ := settleAuthentication_ok hok
      have hcorr := correlation_of_hello mask
      rw [negotiated_iff (p := .opened) (by exact supStep_auth hpc)]
      constructor
      · intro h0
        simp only at h0
        rw [h0] at hcorr
        exact absurd hcorr (by decide)
      · simp only [supervisorCorrelationEnabled, ge_iff_le, decide_eq_true_eq]
        exact hcorr
  · exact h

/-- Beside the transport only the end of a restore leads on. -/
theorem negotiated_aside (h : s.negotiated) {e : Event} (he : aside e = true)
    (hauth : ∀ answer, e ≠ .auth answer) : (s.step cfg e).negotiated := by
  have hu := untouched_step cfg s he
  have hst := stretch_step cfg s e
  unfold negotiated
  rw [hu.loop]
  generalize (s.step cfg e).stretch = st at hst
  cases hst with
  | same => exact h.stay (.inl rfl) (hu.capabilities hauth) fun _ => id
  | idle => trivial
  | restored _ hpc =>
    have hopen := (negotiated_iff hpc).1 h
    simp only [Negotiated, supervisorCorrelationEnabled, Pc.stretch, hu.capabilities hauth] at hopen ⊢
    exact hopen
  | greeted hans => exact absurd hans (hauth _)
  | negotiating hadv | dialed hadv | collected hadv | announced hadv | entered hadv =>
    subst hadv
    cases he

/-- **Every session correlates its requests.** -/
theorem negotiated_step (s : Conn) (e : Event) (h : s.negotiated) : (s.step cfg e).negotiated := by
  have hsession : s.pc = .session → s.shared.capabilities ≠ 0 ∧
      supervisorCorrelationEnabled s.shared = true ∧ s.loop.Correlating := by
    intro hpc
    exact (negotiated_iff hpc).1 h
  cases e with
  | advance => exact negotiated_advance h
  | auth answer => exact negotiated_auth h answer
  | command written =>
    simp only [step, command]
    split
    · rename_i c cs hpc _
      have hturn := (onCommand_goesRound (hsession hpc).2.2 (hsession hpc).2.1 c written).imp_left
        GoesRound.correlating
      have hs : ∀ (origin : Origin),
          (turn cfg origin { s with commands := cs, log := s.log ++ s.buried c }
            (s.loop.onCommand s.shared c written)).negotiated := by
        intro origin
        exact negotiated_turn (by exact h) (by exact hpc) hturn
      split
      · exact negotiated_supStep (hs _) (by simp) (by simp) (by simp) (by simp)
      · exact negotiated_supStep (hs _) (by simp) (by simp) (by simp) (by simp)
      · exact hs _
      · exact hs _
    · exact h
  | cancel =>
    simp only [step, cancel]
    split
    · rename_i hpc _
      exact negotiated_turn (by exact h) (by exact hpc)
        (.inl (onCancel_goesRound (hsession hpc).2.2 _).correlating)
    · exact h
  | inbound frame answers written =>
    simp only [step, inbound]
    split
    · rename_i hpc
      have hframe := Loop.onFrame_framed (hsession hpc).2.2 (hsession hpc).1 frame written
      rw [hframe.1]
      exact negotiated_turn (by exact h) (by exact hpc)
        ((onFrame_goesRound (hsession hpc).2.2 (hsession hpc).1 frame written).imp_left
          GoesRound.correlating)
    · exact h
  | readError =>
    simp only [step, readError]
    split
    · rename_i hpc
      exact negotiated_turn h hpc (.inr rfl)
    · exact h
  | hangup =>
    simp only [step, hangup]
    split
    · rename_i hpc _
      refine negotiated_supStep ?_ (by simp) (by simp) (by simp) (by simp)
      exact negotiated_supStep (negotiated_turn h hpc (.inl ⟨rfl, rfl⟩)) (by simp) (by simp)
        (by simp) (by simp)
    · exact negotiated_supStep h (by simp) (by simp) (by simp) (by simp)
    · exact h
  | dial result =>
    simp only [step, dial]
    split
    · rename_i hpc
      -- the HELLO of the new transport is still to come
      exact (negotiated_iff (p := .handshake) (by exact supStep_dial hpc)).2
        ((negotiated_iff hpc).1 h)
    · exact h.stay (supStep_dial_ne (by assumption)) rfl fun _ => id
  | allocate kind messageType payload =>
    simp only [step, allocate]
    split <;> exact h
  | restoreNext key written | restoreRead frame answers | restoreFail =>
    simp only [step, restoreNext, restoreRead, restoreFail]
    repeat' split
    all_goals exact h
  | _ => exact negotiated_aside h rfl (by simp)

theorem negotiated_new (cfg : Config) : (Conn.new cfg).negotiated := trivial

end Conn

end Fitz

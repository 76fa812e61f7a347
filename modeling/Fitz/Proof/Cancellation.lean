import Fitz.Proof.Correlation

/-!
# Isolation of cancellations

Cancellations carry an id and no generation, and their channel outlives the
session. `cancellations_isolated`: in every run in which each command a session
loop admits and each cancellation it reads carries an id allocated since the ids
last restarted, and a cancellation is read only while the reader holds no bytes, a
caller loses its sender to no cancellation but its own, and no response is
discarded for one.
-/

namespace Fitz

open Machine

/-- The step admits no id of an earlier epoch, from neither channel. -/
def OwnCancels (s : Conn) : Event → Prop
  | .command _ => s.pc = .session → ∀ c ∈ s.commands.head?, s.AdmitsOwn c
  | .cancel => s.pc = .session → ∀ p ∈ s.cancellations.head?, s.ofEpoch p.2
  | _ => True

/-- Every sender that was dropped for a cancellation was dropped for its own
call's. -/
def Isolated (log : List Obs) : Prop := ∀ t cause, .dropped t cause ∈ log → cause = some t

/-- Slots and tombstones belong to calls of the running epoch. -/
structure CancelInv (issued : Ticket → Option (UInt64 × ℕ)) (epoch : ℕ) (l : Loop)
    (tombstones : UInt64 → Option Ticket) : Prop where
  slots : ∀ k slot t, l.correlated.lookup k = some slot → slot.response = some t →
    issued t = some (k, epoch)
  tombs : ∀ id ∈ l.canceled, ∃ c, tombstones id = some c ∧ issued c = some (id, epoch)

section

variable {issued issued' : Ticket → Option (UInt64 × ℕ)} {epoch : ℕ} {l l' : Loop}
  {tombstones : UInt64 → Option Ticket}

theorem CancelInv.sub (h : CancelInv issued epoch l tombstones)
    (hmono : ∀ t p, issued t = some p → issued' t = some p)
    (hl : ∀ k slot t, l'.correlated.lookup k = some slot → slot.response = some t →
      l.correlated.lookup k = some slot) (hc : l'.canceled ⊆ l.canceled) :
    CancelInv issued' epoch l' tombstones := by
  refine ⟨fun k slot t hk ht => hmono t _ (h.slots k slot t (hl k slot t hk ht) ht), fun id hid => ?_⟩
  obtain ⟨c, hc, hi⟩ := h.tombs id (hc hid)
  exact ⟨c, hc, hmono c _ hi⟩

end

namespace Conn

variable {cfg : Config} {s : Conn}

def cancelInv (s : Conn) : Prop := CancelInv s.issued s.epoch s.loop s.tombstones

/-- A served command that keeps the session alive. -/
theorem cancelInv_command (hb : Base s) (hpc : s.pc = .session) (h : s.cancelInv)
    {written : Result Unit} (hown : OwnCancels s (.command written))
    (h' : (s.command cfg written).pc = .session) : (s.command cfg written).cancelInv := by
  obtain ⟨-, hcorr, -⟩ := (negotiated_iff hpc).1 hb.negotiated
  cases hcs : s.commands with
  | nil =>
    simp only [command, hpc, hcs]
    exact h
  | cons c cs =>
    obtain ⟨hf, htomb⟩ := command_frame cfg hpc hcs written
    have hlive := hf.live h'
    have hc : s.AdmitsOwn c := hown hpc c (by simp [hcs])
    have hissued : c.Issued s.issued := hb.tickets.command c (by simp [hcs])
    simp only [cancelInv, hf.loop, hf.issued, hf.epoch, htomb]
    cases c with
    | connect t => exact h
    | close t =>
      refine h.sub (fun _ _ hp => hp) (fun k slot t hk => ?_) (fun _ hid => hid)
      simp [Loop.onCommand, Loop.finish, Loop.failAll] at hk
    | send id generation messageType payload t =>
      obtain ⟨effects, heq, -⟩ := Loop.onSend_sent s.shared s.loop id generation
        messageType payload t written
      simp only [Loop.onCommand, heq, Loop.next]
      exact h
    | request id generation messageType flags payload t =>
      have hreq := Loop.onRequest_requested (l := s.loop) hcorr id generation messageType flags
        payload t written
      simp only [Loop.onCommand] at hlive ⊢
      generalize s.loop.onRequest s.shared id generation messageType flags payload t written = turn
        at hreq hlive
      -- a slot the request leaves has the id of its own caller
      have hslots : ∀ k slot t', turn.loop.correlated.lookup k = some slot → slot.response = some t' →
          s.issued t' = some (k, s.epoch) := by
        intro k slot t' hk ht'
        rcases hreq.slot hlive hk ht' with hk | ⟨rfl, rfl, hg, -⟩
        · exact h.slots k slot t' hk ht'
        · exact issued_of_own hissued (hc t' rfl (congrArg some hg))
      cases hreq with
      | stale => exact h
      | refused | written =>
        exact ⟨hslots, fun id' hid' => h.tombs id' (Finset.mem_of_mem_erase hid')⟩
      | failed => exact absurd rfl hlive

/-- A cancellation of the running epoch. -/
theorem cancelInv_cancel (hb : Base s) (hpc : s.pc = .session) (h : s.cancelInv)
    (hown : OwnCancels s .cancel) : (s.cancel cfg).cancelInv := by
  obtain ⟨-, -, hl⟩ := (negotiated_iff hpc).1 hb.negotiated
  cases hcan : s.cancellations with
  | nil =>
    simp only [cancel, hpc, hcan]
    exact h
  | cons p rest =>
    obtain ⟨id, cause⟩ := p
    obtain ⟨hf, htomb⟩ := cancel_frame cfg hpc hcan
    have hcause : s.issued cause = some (id, s.epoch) :=
      issued_of_own (hb.tickets.cancel (id, cause) (by simp [hcan])) (hown hpc (id, cause) (by simp [hcan]))
    simp only [cancelInv, hf.loop, hf.issued, hf.epoch, htomb]
    have hturn := Loop.onCancel_canceled hl id
    generalize s.loop.onCancel id = turn at hturn
    have hslots : ∀ k slot t, turn.loop.correlated.lookup k = some slot → slot.response = some t →
        s.loop.correlated.lookup k = some slot := fun k slot t hk ht => hturn.slot hk ht
    cases hturn with
    | outstanding =>
      have hif : ¬(id ∈ s.loop.canceled ∧ id ∉ s.loop.canceled) := fun hh => hh.2 hh.1
      simp only [Loop.next, hif, ↓reduceIte]
      exact h.sub (fun _ _ hp => hp) hslots (fun _ hid => hid)
    -- the tombstone is left under the id the canceled call was issued
    | early hnone =>
      refine ⟨h.slots, fun id' hid' => ?_⟩
      simp only [Loop.next] at hid' ⊢
      by_cases hmem : id ∈ s.loop.canceled
      · have hif : ¬(id ∈ insert id s.loop.canceled ∧ id ∉ s.loop.canceled) := fun hh => hh.2 hmem
        simp only [hif, ↓reduceIte]
        rw [Finset.insert_eq_of_mem hmem] at hid'
        exact h.tombs id' hid'
      · simp only [Finset.mem_insert_self, hmem, not_false_eq_true, and_self, ↓reduceIte]
        by_cases heq : id' = id
        · subst heq
          exact ⟨cause, Function.update_self .., hcause⟩
        · rw [Function.update_of_ne heq]
          exact h.tombs id' (Finset.mem_of_mem_insert_of_ne hid' heq)

theorem cancelInv_inbound (hb : Base s) (hpc : s.pc = .session) (h : s.cancelInv) (frame : Bytes)
    (answers : Option ℕ) (written : Result Unit)
    (h' : (s.inbound cfg frame answers written).pc = .session) :
    (s.inbound cfg frame answers written).cancelInv := by
  obtain ⟨hcap, -, hl⟩ := (negotiated_iff hpc).1 hb.negotiated
  obtain ⟨hf, htomb⟩ := inbound_frame cfg hb.negotiated hpc frame answers written
  have hlive := hf.live h'
  simp only [cancelInv, hf.loop, hf.issued, hf.epoch, htomb]
  have hframed := (Loop.onFrame_framed hl hcap frame written).2
  generalize (s.loop.onFrame s.shared frame written).2 = turn at hframed hlive
  have hslots : ∀ k slot t, turn.loop.correlated.lookup k = some slot → slot.response = some t →
      s.loop.correlated.lookup k = some slot := fun k slot t hk _ => hframed.slot hlive hk
  cases hframed with
  | ended => exact absurd rfl hlive
  | ignored | published => exact h
  | answered => exact h.sub (fun _ _ hp => hp) hslots (fun _ hid => hid)

/-- **One step keeps the invariant of a live session.** -/
theorem cancelInv_step (s : Conn) (e : Event) (hb : Base s) (h : s.pc = .session → s.cancelInv)
    (hown : OwnCancels s e) (h' : (s.step cfg e).pc = .session) : (s.step cfg e).cancelInv := by
  rcases session_before s e h' with hpc | ⟨-, -, hloop⟩
  · cases he : inSession e with
    | false =>
      obtain ⟨hl, ht, hep, -, -, -, hi⟩ := session_frame s e hb hpc he h'
      simp only [cancelInv, hl, ht, hep]
      exact (h hpc).sub hi (fun _ _ _ hk _ => hk) (fun _ hid => hid)
    | true =>
      cases e with
      | command written => exact cancelInv_command hb hpc (h hpc) hown h'
      | cancel => exact cancelInv_cancel hb hpc (h hpc) hown
      | inbound frame answers written => exact cancelInv_inbound hb hpc (h hpc) frame answers written h'
      | _ => cases he
  · simp only [cancelInv, hloop]
    exact ⟨fun k slot t hk => by simp [Loop.new] at hk, fun id hid => by simp [Loop.new] at hid⟩

/-- A request that finds a tombstone finds its own. -/
theorem buried_own (hb : Base s) (h : s.cancelInv) {c : Command} (hc : s.AdmitsOwn c)
    (hmem : c ∈ s.commands) {t : Ticket} {cause : Option Ticket}
    (hd : Obs.dropped t cause ∈ s.buried c) : cause = some t := by
  have hissued := hb.tickets.command c hmem
  unfold buried at hd
  split at hd
  · rename_i id generation messageType flags payload t'
    split at hd
    · rename_i hcond
      obtain ⟨rfl, rfl⟩ : t = t' ∧ cause = s.tombstones id := by simpa using hd
      obtain ⟨c, hc', hi⟩ := h.tombs id hcond.2
      have ht := issued_of_own hissued (hc t rfl (congrArg some hcond.1))
      rw [hc', hb.ids.inj c t _ hi ht]
    · cases hd
  · cases hd

/-- A cancellation that drops a sender drops its own. -/
theorem released_own (hb : Base s) (h : s.cancelInv) (hpc : s.pc = .session) {id : UInt64}
    {cause t : Ticket} (hcause : s.issued cause = some (id, s.epoch))
    (hr : Effect.release t ∈ (s.loop.onCancel id).effects) : cause = t := by
  obtain ⟨-, -, hl⟩ := (negotiated_iff hpc).1 hb.negotiated
  have hturn := Loop.onCancel_canceled hl id
  generalize s.loop.onCancel id = turn at hturn hr
  cases hturn with
  | @outstanding slot hslot =>
    simp only [Loop.next] at hr
    cases hresp : slot.response with
    | none => simp [hresp, Loop.releaseOpt] at hr
    | some t' =>
      obtain rfl : t = t' := by simpa [hresp, Loop.releaseOpt] using hr
      exact hb.ids.inj cause t _ hcause (h.slots id slot t hslot hresp)
  | early => simp [Loop.next] at hr

theorem isolated_step (s : Conn) (e : Event) (hb : Base s) (h : s.pc = .session → s.cancelInv)
    (hown : OwnCancels s e) (hlog : Isolated s.log) : Isolated (s.step cfg e).log := by
  obtain ⟨new, hnew, hex⟩ := log_step cfg s e hb.negotiated
  intro t cause hmem
  rw [hnew] at hmem
  rcases List.mem_append.1 hmem with hmem | hmem
  · exact hlog t cause hmem
  · rcases hex _ hmem with ⟨c, ⟨hpc, ⟨written, rfl⟩, cs, hcs⟩, hd⟩ | ⟨id, c, rest, rfl, hpc, hcan, rfl, hr⟩
    · exact buried_own hb (h hpc) (hown hpc c (by simp [hcs])) (by simp [hcs]) hd
    · have hcause : s.issued c = some (id, s.epoch) :=
        issued_of_own (hb.tickets.cancel (id, c) (by simp [hcan])) (hown hpc (id, c) (by simp [hcan]))
      rw [released_own hb (h hpc) hpc hcause hr]

end Conn

namespace Link

variable {cfg : Config} {s : Link}

/-- Over TCP a cancellation wins a pass of the loop only while the reader holds nothing. -/
def CancelsBetween (s : Link) : LinkEvent → Prop
  | .conn .cancel =>
    s.transport = .tcp → s.conn.pc = .session → s.conn.cancellations ≠ [] → s.future = .new
  | _ => True

/-- What cancellations leave alone. -/
structure Isolates (s : Link) : Prop where
  senders : Isolated s.conn.log
  /-- none dropped bytes of what the broker wrote -/
  reads : ∀ cause, .cancellation cause ∉ s.cuts
  /-- if nothing else dropped any, all that the broker wrote is read or yet to be read -/
  responses : (∀ who ∈ s.cuts, ∃ cause, who = .cancellation cause) →
    (∀ r ∈ s.written, r.Framed s.transport) → s.Undiscarded

theorem reads_step (h : ∀ cause, .cancellation cause ∉ s.cuts)
    (hstill : s.transport = .webSocket → s.future = .new) {e : LinkEvent}
    (hbetween : s.CancelsBetween e) (cause : Ticket) :
    .cancellation cause ∉ (s.step cfg e).cuts := by
  have hc := carry_carried s e
  rw [step_eq]
  generalize s.carry e = s' at hc
  cases hc with
  | opened => simp [fresh]
  | dropped who hd =>
    simp only [interrupt, pass]
    split
    · exact h cause
    · rename_i hheld
      rw [List.mem_append, List.mem_singleton]
      rintro (hin | rfl)
      · exact h cause hin
      · obtain ⟨hpc, rfl, id, rest, hcan⟩ := hd
        cases ht : s.transport with
        | tcp => exact hheld (hbetween ht hpc (by simp [hcan]))
        | webSocket => exact hheld (hstill ht)
  | completed =>
    simp only [complete, pass]
    split <;> exact h cause
  | _ => exact h cause

end Link

open Conn Link in
/-- **Cancellations are isolated.** In every run whose session loops take only ids
allocated since the ids last restarted, from commands and from cancellations, and
cancellations only while the reader holds no bytes: no call's sender is dropped for the
cancellation of another call, and no response is discarded for a cancellation. -/
theorem cancellations_isolated (cfg : Config) (transport : Transport) (es : List LinkEvent)
    (h : Along (Link.step cfg) (fun s e => s.Through OwnCancels e ∧ s.CancelsBetween e)
      (.new cfg transport) es) :
    (run (Link.step cfg) (.new cfg transport) es).Isolates := by
  have hinv := along_inv
    (I := fun s : Link =>
      (Base s.conn ∧ (s.conn.pc = .session → s.conn.cancelInv) ∧ Isolated s.conn.log) ∧
        (s.transport = .webSocket → s.future = .new) ∧ (∀ cause, .cancellation cause ∉ s.cuts) ∧
        (s.cuts = [] → (∀ r ∈ s.written, r.Framed s.transport) → s.Drained ∨ s.Intact))
    (fun s e hi hc => ⟨through_step
      (I := fun s => Base s ∧ (s.pc = .session → s.cancelInv) ∧ Isolated s.log)
      (fun s e hi hc => ⟨base_step s e hi.1, cancelInv_step s e hi.1 hi.2.1 hc,
        isolated_step s e hi.1 hi.2.1 hc hi.2.2⟩) hi.1 hc.1,
      still_step hi.2.1 e, reads_step hi.2.2.1 hi.2.1 hc.2, aligned_step hi.2.2.2⟩)
    ⟨⟨base_new cfg, by simp [fresh, Conn.new, Conn.pc, Supervised.new, Sup.new],
      by simp [Isolated, fresh, Conn.new]⟩, fun _ => rfl, by simp [fresh],
      fun _ _ => .inr (intact_fresh _ _)⟩ h
  obtain ⟨⟨-, -, hisolated⟩, -, hreads, haligned⟩ := hinv
  refine ⟨hisolated, hreads, fun honly hframed => ?_⟩
  -- there was no cut at all
  refine undiscarded_of_aligned (haligned (List.eq_nil_iff_forall_not_mem.2 fun who hwho => ?_) hframed)
  obtain ⟨cause, rfl⟩ := honly who hwho
  exact hreads cause hwho

instance (s : Conn) (e : Event) : Decidable (OwnCancels s e) :=
  match e with
  | .command _ => inferInstanceAs (Decidable (_ → ∀ c ∈ s.commands.head?, s.AdmitsOwn c))
  | .cancel => inferInstanceAs (Decidable (_ → ∀ p ∈ s.cancellations.head?, s.ofEpoch p.2))
  | .allocate .. | .stamp .. | .enqueue .. | .resume .. | .abandon .. | .connect | .requestClose
  | .close | .register .. | .deactivate .. | .receive | .hangup | .token .. | .dial .. | .auth ..
  | .restoreNext .. | .restoreRead .. | .restoreFail | .restored | .wake | .advance | .inbound ..
  | .readError => isTrue trivial

instance Link.CancelsBetween.decidable (s : Link) : ∀ e, Decidable (s.CancelsBetween e)
  | .conn .cancel => inferInstanceAs (Decidable (s.transport = .tcp → s.conn.pc = .session →
    s.conn.cancellations ≠ [] → s.future = .new))
  | .conn (.allocate ..) | .conn (.stamp _) | .conn (.enqueue _) | .conn (.resume _)
  | .conn (.abandon _) | .conn .connect | .conn .requestClose | .conn .close
  | .conn (.register ..) | .conn (.deactivate _) | .conn .advance | .conn .receive
  | .conn .hangup | .conn (.token _) | .conn (.dial _) | .conn (.auth _)
  | .conn (.restoreNext ..) | .conn (.restoreRead ..) | .conn .restoreFail | .conn .restored
  | .conn .wake | .conn (.command _) | .conn (.inbound ..) | .conn .readError
  | .write _ | .arrive _ | .eof | .poll _ | .fail _ => isTrue trivial

/-- A call that times out in its session: its own slot loses its sender. -/
def canceledRun : List Event :=
  firstSession 8 ++ requestRun 100 1 ++ [.command (.ok ()), .abandon 1, .cancel]

theorem cancellations_isolated_timeout :
    Obs.dropped 1 (some 1) ∈
        (run (Link.step ⟨4, ⟨true, 0⟩⟩) (.new ⟨4, ⟨true, 0⟩⟩ .tcp) (wired canceledRun)).conn.log ∧
      (run (Link.step ⟨4, ⟨true, 0⟩⟩) (.new ⟨4, ⟨true, 0⟩⟩ .tcp) (wired canceledRun)).Isolates :=
  ⟨by decide +kernel,
    cancellations_isolated ⟨4, ⟨true, 0⟩⟩ .tcp (wired canceledRun) (by decide +kernel)⟩

/-- A call of one session times out after the loss; its cancellation waits in the
channel and is read in the next session, where id 1 is another call's. -/
def lateCancelRun : List LinkEvent :=
  wired (firstSession 8 ++ requestRun 100 1 ++ [.command (.ok ()), .abandon 1, .readError, .advance,
    .advance, .wake] ++ dialRun 8 ++ enterRun ++ requestRun 101 2 ++ [.command (.ok ()), .cancel])

/-- The first of two calls is dropped while the answer to the second is half read. -/
def cutCancelRun : List LinkEvent :=
  wired (firstSession 8 ++ requestRun 100 1 ++ requestRun 101 2 ++
    [.command (.ok ()), .command (.ok ())]) ++
    [.write ⟨writeTcpFrame (replyFrame 101 2 [9]), some ⟨2, 101, .request 2⟩⟩, .arrive 4,
      .poll (.ok ()), .conn (.abandon 1), .conn .cancel, .arrive 16, .poll (.ok ())]

/-- The caller of the second call still waits, and has lost its sender to the
first call's cancellation. In one session the cancellation of one call takes bytes of the
answer to another, whose caller is told that the connection is closed. -/
theorem cancellation_hits_later_call :
    ((run (Link.step ⟨4, ⟨true, 0⟩⟩) (.new ⟨4, ⟨true, 0⟩⟩ .tcp) lateCancelRun).conn.calls.lookup 2 =
          some ⟨.request 0, 101, [], 1, .waiting⟩ ∧
        ¬ Isolated
          (run (Link.step ⟨4, ⟨true, 0⟩⟩) (.new ⟨4, ⟨true, 0⟩⟩ .tcp) lateCancelRun).conn.log) ∧
      (Along (Link.step ⟨4, ⟨true, 0⟩⟩) (fun s e => s.Through OwnCancels e ∧ s.Vouches (fun _ => True) e)
          (.new ⟨4, ⟨true, 0⟩⟩ .tcp) cutCancelRun ∧
        (2, some (.error .connectionClosed)) ∈
          (run (Link.step ⟨4, ⟨true, 0⟩⟩) (.new ⟨4, ⟨true, 0⟩⟩ .tcp) cutCancelRun).conn.answers ∧
        ¬ (run (Link.step ⟨4, ⟨true, 0⟩⟩) (.new ⟨4, ⟨true, 0⟩⟩ .tcp) cutCancelRun).Isolates) := by
  refine ⟨⟨by decide +kernel, fun h => ?_⟩, by decide +kernel, by decide +kernel, fun h => ?_⟩
  · exact absurd (h 2 (some 1) (by decide +kernel)) (by decide)
  · exact h.reads 1 (by decide +kernel)

end Fitz

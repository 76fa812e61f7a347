import Fitz.Proof.Cancellation
import Fitz.Proof.Disabled

/-!
# A session survives its callers

A response under an id the session loop does not know ends the session, so a caller that
gives up must not make the loop forget the id. `sessions_survive`: in every run whose
transport works and whose broker writes frames that decode, and correlated ones only for
frames it has not answered, no session is lost, whatever callers cancel, time out, drop or
close, and however late the answers come. The ids are those of the running epoch, and over
TCP no read that holds bytes is dropped, as for `responses_attributed`.
-/

namespace Fitz

open Machine

/-- A write succeeds, and a frame is read that decodes and, if it names a request, answers one
that is unanswered under that request's own id. -/
def Sustains (s : Conn) : Event → Prop
  | .command written => written = .ok ()
  | .readError => s.pc ≠ .session
  | .inbound frame answers _ => s.pc = .session →
    (decodeIncoming s.shared frame).isOk = true ∧
      ∀ header ∈ (decodeFrameHeader frame).toOption, header.correlationId ≠ 0 →
        ∃ f ∈ s.source answers, f.origin.isRequest = true ∧ f.correlationId = header.correlationId
  | _ => True

/-! ## Turns -/

namespace Loop

/-- A write that succeeds ends no session. -/
theorem onCommand_live {sh : Shared} {l : Loop} (hcorr : supervisorCorrelationEnabled sh = true)
    (c : Command) : (l.onCommand sh c (.ok ())).result ≠ some .disconnected := by
  cases c with
  | request id generation messageType flags payload t =>
    simp only [onCommand, onRequest, hcorr, if_true]
    split
    · simp [next]
    · simp only [requestCorrelated]
      repeat' split
      all_goals simp [next]
  | send id generation messageType payload t =>
    obtain ⟨effects, heq, -⟩ := onSend_sent sh l id generation messageType payload t (.ok ())
    simp only [onCommand, heq]
    simp [next]
  | connect t | close t => simp [onCommand, next, finish]

/-- A frame that decodes and answers an id the loop knows ends no session. -/
theorem onFrame_live {sh : Shared} {l : Loop} (hl : l.Correlating) (hcap : sh.capabilities ≠ 0)
    {frame : Bytes} (hdec : (decodeIncoming sh frame).isOk = true)
    (hknown : ∀ header ∈ (decodeFrameHeader frame).toOption, header.correlationId ≠ 0 →
      header.correlationId ∈ l.correlated) (written : Result Unit) :
    (l.onFrame sh frame written).2.result = none := by
  unfold onFrame
  cases hd : decodeIncoming sh frame with
  | error e =>
    rw [hd] at hdec
    cases hdec
  | ok r =>
    obtain ⟨sh', records⟩ := r
    obtain ⟨-, rfl | ⟨header, payload, mask, hh, -, rfl⟩⟩ := decodeIncoming_ok hcap hd
    · rfl
    · simp only [onRecords, onRecord]
      by_cases hcorr : header.correlationId = 0
      · simp [hcorr, dispatch, hl.pending, next]
      · have hmem := hknown header (by rw [hh]; rfl) hcorr
        obtain ⟨slot, hslot⟩ := Option.isSome_iff_exists.1 (AList.lookup_isSome.2 hmem)
        simp only [ne_eq, hcorr, not_false_eq_true, if_true, dispatchCorrelated, hslot]
        cases hfinal : (header.flags &&& responseFinal != 0) with
        | true => simp [next]
        | false => simp [next]

end Loop

namespace Conn

variable {cfg : Config} {s : Conn}

/-! ## Losses -/

/-- The event ends the session by its transport. -/
def LosesBy (s : Conn) : Event → Prop
  | .command written => ∃ c ∈ s.commands.head?,
    (s.loop.onCommand s.shared c written).result = some .disconnected
  | .cancel => ∃ p ∈ s.cancellations.head?, (s.loop.onCancel p.1).result = some .disconnected
  | .inbound frame _ written => (s.loop.onFrame s.shared frame written).2.result = some .disconnected
  | .readError => True
  | _ => False

/-- A turn loses the session if it says so. -/
theorem lost_afterTurn {task : Supervised} {r : Option SessionResult}
    (h : Act.lost ∈ (afterTurn cfg task r).acts) : Act.lost ∈ task.acts ∨ r = some .disconnected := by
  cases r with
  | none => exact .inl h
  | some r =>
    cases r with
    | closed => exact .inl h
    | disconnected => exact .inr rfl

theorem lost_task {task : Supervised} {e : SupEvent} (hne : e ≠ .disconnected)
    (h : Act.lost ∈ (task.step cfg.reconnect e).acts) : Act.lost ∈ task.acts := by
  rcases List.mem_append.1 h with h | h
  · exact h
  · exact absurd (lost_mem_move (step_move cfg.reconnect task.sup e) h).2 hne

/-- **A session is lost in a turn that says so.** -/
theorem lost_step (e : Event) (h : Act.lost ∈ (s.step cfg e).task.acts) :
    Act.lost ∈ s.task.acts ∨ s.pc = .session ∧ s.LosesBy e := by
  cases e with
  | command written =>
    simp only [step, command] at h
    split at h
    · rename_i c cs hpc hcs
      have hturn : Act.lost ∈
          (afterTurn cfg s.task (s.loop.onCommand s.shared c written).result).acts := by
        cases c with
        | connect t | close t =>
          simp only [turn_eq] at h
          exact lost_task (by simp) h
        | request | send =>
          simp only [turn_eq] at h
          exact h
      rcases lost_afterTurn hturn with hold | hr
      · exact .inl hold
      · exact .inr ⟨hpc, c, by simp [hcs], hr⟩
    · exact .inl h
  | cancel =>
    simp only [step, cancel, turn_eq] at h
    split at h
    · rename_i id cause rest hpc hcan
      exact (lost_afterTurn h).imp_right fun hr => ⟨hpc, (id, cause), by simp [hcan], hr⟩
    · exact .inl h
  | inbound frame answers written =>
    simp only [step, inbound, turn_eq] at h
    split at h
    · rename_i hpc
      exact (lost_afterTurn h).imp_right fun hr => ⟨hpc, hr⟩
    · exact .inl h
  | readError =>
    simp only [step, readError, turn_eq] at h
    split at h
    · rename_i hpc
      exact .inr ⟨hpc, trivial⟩
    · exact .inl h
  | hangup =>
    simp only [step, hangup, turn_eq] at h
    split at h
    · have hone := lost_task (by simp) h
      have htwo := lost_task (by simp) hone
      exact (lost_afterTurn htwo).imp_right fun hr => by cases hr
    · exact .inl (lost_task (by simp) h)
    · exact .inl h
  | advance =>
    simp only [step, advance] at h
    split at h
    all_goals exact .inl (lost_task (by simp) h)
  | allocate kind messageType payload =>
    simp only [step, allocate] at h
    split at h <;> exact .inl h
  | stamp t | enqueue t | resume t | abandon t | connect | close | restoreNext cell written
  | restoreRead frame answers | restoreFail =>
    simp only [step, stamp, enqueue, resume, abandon, dropGuard, push, restoreNext, restoreRead,
      restoreFail] at h
    repeat' split at h
    all_goals exact .inl h
  | requestClose | receive | dial result | auth answer | restored =>
    simp only [step, requestClose, receive, dial, auth, restored] at h
    repeat' split at h
    all_goals first
      | exact .inl h
      | exact .inl (lost_task (by simp) h)
  | token result | wake => exact .inl (lost_task (by simp) h)
  | register | deactivate => exact .inl h

/-! ## Slots for all that is unanswered -/

/-- The loop knows the id of every request the broker has not answered. -/
def Slotted (s : Conn) : Prop :=
  s.pc = .session → ∀ f ∈ s.unanswered, f.origin.isRequest = true →
    f.correlationId ∈ s.loop.correlated

/-- Outside its own branches a session writes and reads nothing. -/
theorem unanswered_session (hpc : s.pc = .session) {e : Event} (he : inSession e = false) :
    (s.step cfg e).unanswered = s.unanswered := by
  cases e with
  | command | cancel | inbound => cases he
  | advance =>
    have ha := advance_advanced cfg s
    simp only [step]
    generalize s.advance cfg = s' at ha
    cases ha <;> rfl
  | readError | hangup =>
    simp only [step, readError, hangup, hpc, turn_eq]
    try split
    all_goals simp [Loop.onReadError, Loop.onHangup, Loop.finish, supStep]
  | allocate kind messageType payload =>
    simp only [step, allocate]
    split <;> rfl
  | dial result | restoreNext cell written | restoreRead frame answers | restoreFail | receive
  | auth answer =>
    simp only [step, dial, restoreNext, restoreRead, restoreFail, receive, auth, hpc, supStep]
  | stamp t | enqueue t | resume t | abandon t | connect | close | requestClose | restored =>
    simp only [step, stamp, enqueue, resume, abandon, dropGuard, push, requestClose, restored]
    repeat' split
    all_goals rfl
  | register | deactivate | token | wake => rfl

theorem slotted_command (hb : Base s) (hpc : s.pc = .session) (h : s.Slotted)
    {written : Result Unit} (h' : (s.command cfg written).pc = .session) :
    (s.command cfg written).Slotted := by
  intro _ f hf hreq
  cases hcs : s.commands with
  | nil =>
    have hstay : s.command cfg written = s := by simp only [command, hpc, hcs]
    rw [hstay] at hf ⊢
    exact h hpc f hf hreq
  | cons c cs =>
    obtain ⟨-, hcorr, -⟩ := (negotiated_iff hpc).1 hb.negotiated
    obtain ⟨hframe, -⟩ := command_frame cfg hpc hcs written
    have hlive := hframe.live h'
    rw [hframe.loop]
    cases c with
    | request id generation messageType flags payload t =>
      have hrequested := Loop.onRequest_requested (l := s.loop) hcorr id generation messageType flags
        payload t written
      simp only [command, hpc, hcs, turn_eq] at hf
      simp only [Loop.onCommand] at hf hlive ⊢
      generalize s.loop.onRequest s.shared id generation messageType flags payload t written = turn
        at hrequested hf hlive ⊢
      cases hrequested with
      | stale =>
        simp only [Loop.next, List.filterMap_cons, Effect.frame?, List.filterMap_nil, List.map_nil,
          List.append_nil] at hf
        exact h hpc f hf hreq
      | refused _ hw =>
        simp only [hw, List.map_nil, List.append_nil] at hf
        exact h hpc f hf hreq
      | written _ _ henc hw =>
        simp only [hw, List.map_cons, List.map_nil] at hf
        rcases List.mem_append.1 hf with hf | hf
        · exact (AList.mem_insert _).2 (.inr (h hpc f hf hreq))
        · -- its own slot is there
          rw [List.mem_singleton.1 hf]
          refine (AList.mem_insert _).2 (.inl ?_)
          simp only [sent, decodeFrameHeader_of_outbound henc]
      | failed => exact absurd rfl hlive
    | send id generation messageType payload t =>
      obtain ⟨effects, heq, -⟩ := Loop.onSend_sent s.shared s.loop id generation messageType payload
        t written
      simp only [command, hpc, hcs, turn_eq] at hf
      simp only [Loop.onCommand, heq, Loop.next] at hf ⊢
      rcases List.mem_append.1 hf with hf | hf
      · exact h hpc f hf hreq
      · obtain ⟨frame, -, rfl⟩ := List.mem_map.1 hf
        rw [sent_origin] at hreq
        cases hreq
    | connect t =>
      simp only [command, hpc, hcs, turn_eq, supStep, Loop.onCommand, Loop.next, List.filterMap_cons,
        Effect.frame?, List.filterMap_nil, List.map_nil, List.append_nil] at hf
      exact h hpc f hf hreq
    | close t =>
      -- a `Close` leaves the session
      exfalso
      simp only [command, hpc, hcs, turn_eq, Loop.onCommand, Loop.finish, afterTurn] at h'
      simp only [pc] at hpc
      simp [pc, supStep, Supervised.step, Sup.step, hpc, Sup.goto] at h'

/-- What a frame that answers a request leaves unanswered has other ids. -/
theorem other_ids (hdistinct : DistinctIds s) (hpc : s.pc = .session) {i : ℕ} {f f' : Sent}
    (hf : s.unanswered[i]? = some f) (hreq : f.origin.isRequest = true)
    (hf' : f' ∈ s.unanswered.eraseIdx i) (hreq' : f'.origin.isRequest = true) :
    f'.correlationId ≠ f.correlationId := by
  have hnodup := hdistinct hpc
  obtain ⟨hi, hget⟩ := List.getElem?_eq_some_iff.1 hf
  have hsplit : s.unanswered = s.unanswered.take i ++ f :: s.unanswered.drop (i + 1) := by
    rw [← hget, List.getElem_cons_drop, List.take_append_drop]
  have hperm : (s.unanswered.take i ++ f :: s.unanswered.drop (i + 1)).Perm
      (f :: s.unanswered.eraseIdx i) := by
    rw [List.eraseIdx_eq_take_drop_succ]
    exact List.perm_middle
  rw [← hsplit] at hperm
  have hids := (((hperm.filter (·.origin.isRequest)).map (·.correlationId)).nodup_iff).1 hnodup
  rw [List.filter_cons_of_pos (by simpa using hreq), List.map_cons, List.nodup_cons] at hids
  intro heq
  exact hids.1 (heq ▸ List.mem_map_of_mem (List.mem_filter.2 ⟨hf', hreq'⟩))

theorem slotted_inbound (hb : Base s) (hdistinct : DistinctIds s) (hpc : s.pc = .session)
    (h : s.Slotted) {frame : Bytes} {answers : Option ℕ} {written : Result Unit}
    (hdep : Sustains s (.inbound frame answers written))
    (h' : (s.inbound cfg frame answers written).pc = .session) :
    (s.inbound cfg frame answers written).Slotted := by
  intro _ f hf hreq
  obtain ⟨hcap, -, hl⟩ := (negotiated_iff hpc).1 hb.negotiated
  obtain ⟨hframe, -⟩ := inbound_frame cfg hb.negotiated hpc frame answers written
  have hlive := hframe.live h'
  have hframed := (Loop.onFrame_framed hl hcap frame written).2
  have hsilent := onFrame_silent hl hcap frame written
  rw [hframe.loop]
  have hread : f ∈ (s.read frame answers).unanswered := by
    simp only [inbound, hpc, turn_eq, hsilent, List.map_nil, List.append_nil] at hf
    exact hf
  have hold : f ∈ s.unanswered := (read_unanswered s frame answers).subset hread
  generalize (s.loop.onFrame s.shared frame written).2 = turn at hframed hlive ⊢
  cases hframed with
  | ended => exact absurd rfl hlive
  | ignored | published => exact h hpc f hold hreq
  | @answered header slot payload mask hh hcorr hfinal hd hslot =>
    obtain ⟨f', hsource, hreq', hid⟩ := (hdep hpc).2 header (by rw [hh]; rfl) hcorr
    obtain ⟨i, rfl, hi⟩ := Option.bind_eq_some_iff.1 hsource
    have hisFinal : isFinal frame = true := by
      simp only [isFinal, hh]
      simpa using hfinal
    simp only [read, hisFinal] at hread
    -- the slot that goes is that of the request that was answered
    have hne := other_ids hdistinct hpc hi hreq' hread hreq
    rw [hid] at hne
    exact AList.mem_erase.2 ⟨hne, h hpc f hold hreq⟩

theorem slotted_step (s : Conn) (e : Event) (hb : Base s) (hs : s.sessionInv) (h : s.Slotted)
    (hdep : Sustains s e) : (s.step cfg e).Slotted := by
  intro h'
  rcases session_before s e h' with hpc | ⟨hpc, rfl, -⟩
  · cases he : inSession e with
    | false =>
      have hf := session_frame s e hb hpc he h'
      rw [unanswered_session hpc he, hf.loop]
      exact h hpc
    | true =>
      cases e with
      | command written => exact slotted_command hb hpc h h' h'
      | cancel =>
        obtain ⟨-, -, hl⟩ := (negotiated_iff hpc).1 hb.negotiated
        intro f hf hreq
        cases hcan : s.cancellations with
        | nil =>
          have hstay : s.step cfg .cancel = s := by simp only [step, cancel, hpc, hcan]
          rw [hstay] at hf ⊢
          exact h hpc f hf hreq
        | cons p rest =>
          obtain ⟨hframe, -⟩ := cancel_frame cfg hpc hcan
          have hunanswered : (s.cancel cfg).unanswered = s.unanswered := by
            simp only [cancel, hpc, hcan, turn_eq, onCancel_silent hl, List.map_nil, List.append_nil]
          simp only [step] at hf ⊢
          rw [hunanswered] at hf
          rw [hframe.loop]
          have hcanceled := Loop.onCancel_canceled hl p.1
          generalize s.loop.onCancel p.1 = turn at hcanceled
          cases hcanceled with
          | outstanding => exact (AList.mem_insert _).2 (.inr (h hpc f hf hreq))
          | early => exact h hpc f hf hreq
      | inbound frame answers written =>
        exact slotted_inbound hb (distinctIds hb hs) hpc h hdep h' h'
      | _ => cases he
  · -- before a session only restore requests were sent
    intro f hf hreq
    have hopen := ((sessionInv_iff hpc).1 hs).opening (by simp [Pc.stretch]) (by simp [Pc.stretch])
      (by simp [Pc.stretch])
    have hunanswered : (s.step cfg .advance).unanswered = s.unanswered := by
      have ha := advance_advanced cfg s
      simp only [step]
      generalize s.advance cfg = s' at ha
      cases ha <;> rfl
    rw [hunanswered] at hf
    have hrestore := hopen f hf
    cases ho : f.origin with
    | restore => simp [ho, Origin.isRequest] at hreq
    | request | send | queued => simp [ho, Origin.isRestore] at hrestore

/-! ## Runs -/

/-- Such a step loses no session. -/
theorem not_loses (hb : Base s) (h : s.Slotted) {e : Event} (hdep : Sustains s e)
    (hpc : s.pc = .session) : ¬ s.LosesBy e := by
  obtain ⟨hcap, hcorr, hl⟩ := (negotiated_iff hpc).1 hb.negotiated
  intro hloses
  cases e with
  | command written =>
    obtain ⟨c, -, hr⟩ := hloses
    obtain rfl : written = .ok () := hdep
    exact Loop.onCommand_live hcorr c hr
  | cancel =>
    obtain ⟨p, -, hr⟩ := hloses
    have hcanceled := Loop.onCancel_canceled hl p.1
    generalize s.loop.onCancel p.1 = turn at hcanceled hr
    cases hcanceled <;> cases hr
  | inbound frame answers written =>
    obtain ⟨hdec, hanswers⟩ := hdep hpc
    have hnone := Loop.onFrame_live hl hcap hdec (fun header hheader hcorr => by
      obtain ⟨f, hsource, hreq, hid⟩ := hanswers header hheader hcorr
      obtain ⟨i, rfl, hi⟩ := Option.bind_eq_some_iff.1 hsource
      exact hid ▸ h hpc f (List.mem_of_getElem? hi) hreq) written
    rw [LosesBy, hnone] at hloses
    cases hloses
  | readError => exact hdep hpc
  | _ => exact hloses

end Conn

/-! ## Over a transport -/

/-- What was written waits for an answer. -/
def Origin.awaits : Origin → Bool
  | .request _ | .restore _ => true
  | .send _ | .queued => false

namespace Link

/-- The transport works: what is written goes out, and while a session runs the broker keeps
its end open and writes frames that decode, and no heartbeat expires. -/
def Dependable (s : Link) : LinkEvent → Prop
  | .conn (.command written) => written = .ok ()
  | .poll _ => s.conn.pc = .session → s.eof = false ∧
    ∀ reply ∈ s.replies.head?,
      (decodeIncoming s.conn.shared (reply.frame s.transport)).isOk = true
  | .fail _ => s.conn.pc ≠ .session
  | _ => True

/-- Over such a transport the reads of a session sustain it. -/
theorem sustains_of_dependable {s : Link} {e : LinkEvent} (hs : s.conn.sessionInv)
    (hf : s.Followed fun f => f.origin.awaits = true) (hdep : s.Dependable e) :
    s.Through Sustains e := by
  intro e' he
  cases e' with
  | command written =>
    rcases event_cases he with ⟨rfl, -⟩ | ⟨w, result, rest, rfl, -, hc⟩ | ⟨error, rfl, hc⟩
    · exact hdep
    all_goals
      unfold completes at hc
      split at hc <;> cases hc
  | readError =>
    rcases event_cases he with ⟨-, hr⟩ | ⟨w, result, rest, rfl, hread, hc⟩ | ⟨error, rfl, -⟩
    · cases hr
    · -- the broker keeps its end open, so the read does not fail
      obtain ⟨hpc, error, rfl⟩ := completes_readError hc
      have heof : s.eof = true := by
        rcases hf with h | ⟨h, -⟩
        · exact h.eof
        · exact (h.read_error hread).1
      rw [(hdep hpc).1] at heof
      cases heof
    · exact hdep
  | inbound frame answers written =>
    obtain ⟨rfl, hpc, rfl, rest, hread⟩ := read_of_inbound he
    refine fun _ => ⟨?_, fun header hheader hcorr => ?_⟩
    · rcases hf with h | ⟨h, -⟩
      · rw [h.read] at hread
        cases hread
      · obtain ⟨reply, replies, hreplies, rfl, -, -⟩ := h.read_ok hread
        exact (hdep hpc).2 reply (by simp [hreplies])
    · obtain ⟨f, hsource, hawaits, hid⟩ := answers_of_read hf hread header hheader hcorr
      refine ⟨f, hsource, ?_, hid⟩
      -- in a session no restore request is unanswered
      obtain ⟨i, -, hi⟩ := Option.bind_eq_some_iff.1 hsource
      have hown := ((Conn.sessionInv_iff hpc).1 hs).sent rfl f (List.mem_of_getElem? hi)
      cases ho : f.origin with
      | request => rfl
      | restore => simp [OwnFrame, ho] at hown
      | send | queued => simp [ho, Origin.awaits] at hawaits
  | _ => trivial

end Link

open Conn Link in
/-- **A session survives its callers.** In every run over a transport that works, with a
broker that answers only requests and registrations it has not answered, with ids of the
running epoch, and, over TCP, with no read dropped that holds bytes, no session is lost. -/
theorem sessions_survive (cfg : Config) (transport : Transport) (es : List LinkEvent)
    (h : Along (Link.step cfg) (fun s e => s.Through OwnIds e ∧ s.WholeReads e ∧
      s.Vouches (fun f => f.origin.awaits = true) e ∧ s.Dependable e) (.new cfg transport) es) :
    Act.lost ∉ (run (Link.step cfg) (.new cfg transport) es).conn.task.acts := by
  have hstep : ∀ (s : Conn) (e : Event),
      ((Base s ∧ s.sessionInv ∧ s.Slotted) ∧ Act.lost ∉ s.task.acts) → OwnIds s e ∧ Sustains s e →
      (Base (s.step cfg e) ∧ (s.step cfg e).sessionInv ∧ (s.step cfg e).Slotted) ∧
        Act.lost ∉ (s.step cfg e).task.acts := by
    rintro s e ⟨⟨hb, hs, hslot⟩, hlost⟩ ⟨hown, hsus⟩
    refine ⟨⟨base_step s e hb, sessionInv_step s e hb hs hown, slotted_step s e hb hs hslot hsus⟩,
      fun hnow => ?_⟩
    exact (lost_step e hnow).elim hlost fun hl => not_loses hb hslot hsus hl.1 hl.2
  have hstart : (Base (Conn.new cfg) ∧ (Conn.new cfg).sessionInv ∧ (Conn.new cfg).Slotted) ∧
      Act.lost ∉ (Conn.new cfg).task.acts :=
    ⟨⟨base_new cfg, SessionInv.idle, by simp [Slotted, Conn.new]⟩,
      by simp [Conn.new, Supervised.new]⟩
  have hinv := along_inv
    (I := fun s : Link => ((Base s.conn ∧ s.conn.sessionInv ∧ s.conn.Slotted) ∧
      Act.lost ∉ s.conn.task.acts) ∧ s.Followed fun f => f.origin.awaits = true)
    (fun s e hi hc => by
      obtain ⟨hi, hf⟩ := hi
      obtain ⟨hown, hwhole, hvouches, hdep⟩ := hc
      refine ⟨through_step hstep hi fun e' he => ⟨hown e' he, ?_⟩, followed_step hf hwhole hvouches⟩
      exact sustains_of_dependable hi.1.2.1 hf hdep e' he)
    ⟨hstart, followed_fresh _ _ _⟩ h
  exact hinv.1.2

instance (s : Link) (e : LinkEvent) : Decidable (s.Dependable e) :=
  match e with
  | .conn (.command written) => inferInstanceAs (Decidable (written = .ok ()))
  | .poll _ => inferInstanceAs (Decidable (_ → _ ∧ ∀ reply ∈ s.replies.head?, _ = true))
  | .fail _ => inferInstanceAs (Decidable (s.conn.pc ≠ .session))
  | .write _ | .arrive _ | .eof => isTrue trivial
  | .conn e => by
    unfold Link.Dependable
    split <;> infer_instance

/-- A call times out, another is made, and both are answered, the first one late. -/
def lateAnswerRun : List LinkEvent :=
  wired (canceledRun ++ requestRun 101 2 ++ [.command (.ok ())]) ++
    heard (replyFrame 100 1 [7]) (some ⟨1, 100, .request 1⟩) ++
    heard (replyFrame 101 2 [8]) (some ⟨2, 101, .request 2⟩)

theorem sessions_survive_late :
    (2, some (.ok [8])) ∈
        (run (Link.step ⟨4, ⟨true, 0⟩⟩) (.new ⟨4, ⟨true, 0⟩⟩ .tcp) lateAnswerRun).conn.answers ∧
      Act.lost ∉
        (run (Link.step ⟨4, ⟨true, 0⟩⟩) (.new ⟨4, ⟨true, 0⟩⟩ .tcp) lateAnswerRun).conn.task.acts :=
  ⟨by decide +kernel, sessions_survive ⟨4, ⟨true, 0⟩⟩ .tcp lateAnswerRun (by decide +kernel)⟩

end Fitz

import Fitz.Proof.Link

/-!
# Correlation of requests and responses

Ids restart at 1 with every session, and a command is admitted by its generation
alone. `responses_attributed`: in every run in which each command a session loop
admits carries an id allocated since the ids last restarted, and each session
starts with no restore request unanswered, no two outstanding requests share an
id. If besides no read that holds bytes is dropped, a broker that answers each
frame under its own id never has a payload handed to another call.
`responses_swapped` shows what each of the two conditions shuts out.
-/

namespace Fitz

open Machine

/-! ## The condition and the property -/

namespace Conn

/-- The call allocated its id in the running epoch. -/
def ofEpoch (s : Conn) (t : Ticket) : Prop := (s.issued t).map Prod.snd = some s.epoch

/-- A command the session loop would admit carries an id of the running epoch. -/
def AdmitsOwn (s : Conn) (c : Command) : Prop :=
  ∀ t ∈ c.ticket?, c.generation? = some s.loop.sessionGeneration → s.ofEpoch t

end Conn

def Origin.isRestore : Origin → Bool
  | .restore _ => true
  | _ => false

def Origin.isRequest : Origin → Bool
  | .request _ => true
  | _ => false

/-- The step admits no id of an earlier epoch, and starts no session with a
restore request unanswered. -/
def OwnIds (s : Conn) : Event → Prop
  | .command _ => s.pc = .session → ∀ c ∈ s.commands.head?, s.AdmitsOwn c
  | .advance => s.pc = .entering → ∀ f ∈ s.unanswered, f.origin.isRestore = false
  | _ => True

/-- A frame with a correlation answers an unanswered frame under that frame's own
correlation. -/
def Honest (s : Conn) : Event → Prop
  | .inbound frame answers _ =>
    ∀ header ∈ (decodeFrameHeader frame).toOption, header.correlationId ≠ 0 →
      (s.source answers).map (·.correlationId) = some header.correlationId
  | _ => True

/-- No two requests outstanding in the session carry the same id. -/
def DistinctIds (s : Conn) : Prop :=
  s.pc = .session → ((s.unanswered.filter (·.origin.isRequest)).map (·.correlationId)).Nodup

/-- The payload is that of a frame that ends an answer. -/
def FinalAnswer (frame payload : Bytes) : Prop :=
  ∃ header mask, decodeFrameHeader frame = .ok header ∧ header.flags &&& responseFinal ≠ 0 ∧
    Wire3.decode (frame.drop header.payloadStart) header.messageType header.flags = .ok (payload, mask)

/-- Every payload handed to a caller is the final answer to its own frame. -/
def OwnDeliveries (log : List Obs) : Prop :=
  ∀ serial t payload frame source, .delivered serial t payload frame source ∈ log →
    (∃ f, source = some f ∧ f.origin.ticket? = some t) ∧ FinalAnswer frame payload

/-! ## The invariant of a session -/

/-- A frame of a call of the running epoch. -/
def OwnFrame (issued : Ticket → Option (UInt64 × ℕ)) (epoch : ℕ) (f : Sent) : Prop :=
  match f.origin with
  | .request t => issued t = some (f.correlationId, epoch)
  | .send t => f.correlationId = 0 ∨ issued t = some (f.correlationId, epoch)
  | _ => False

structure SessionInv (st : Stretch) (issued : Ticket → Option (UInt64 × ℕ)) (epoch : ℕ) (l : Loop)
    (unanswered : List Sent) : Prop where
  opening : st ≠ .idle → st ≠ .dialing → st ≠ .session →
    ∀ f ∈ unanswered, f.origin.isRestore = true
  slots : st = .session → ∀ k slot t, l.correlated.lookup k = some slot → slot.response = some t →
    issued t = some (k, epoch)
  sent : st = .session → ∀ f ∈ unanswered, OwnFrame issued epoch f

theorem OwnFrame.mono {issued issued' : Ticket → Option (UInt64 × ℕ)} {epoch : ℕ} {f : Sent}
    (h : OwnFrame issued epoch f) (hmono : ∀ t p, issued t = some p → issued' t = some p) :
    OwnFrame issued' epoch f := by
  unfold OwnFrame at h ⊢
  split
  · rename_i t ho
    simp only [ho] at h
    exact hmono t _ h
  · rename_i t ho
    simp only [ho] at h
    exact h.imp id (hmono t _)
  · rename_i hr hs
    split at h
    · exact (hr _ (by assumption)).elim
    · exact (hs _ (by assumption)).elim
    · exact h

section

variable {st st' : Stretch} {issued issued' : Ticket → Option (UInt64 × ℕ)} {epoch epoch' : ℕ}
  {l l' : Loop} {un un' : List Sent}

/-- A step within a stretch: ids are issued, slots and frames go. -/
theorem SessionInv.stay (h : SessionInv st issued epoch l un) (hst : st' = st ∨ st' = .idle)
    (hmono : ∀ t p, issued t = some p → issued' t = some p)
    (hl : ∀ k slot t, l'.correlated.lookup k = some slot → slot.response = some t →
      l.correlated.lookup k = some slot) (hun : ∀ f ∈ un', f ∈ un) :
    SessionInv st' issued' epoch l' un' := by
  rcases hst with rfl | rfl
  · exact ⟨fun h1 h2 h3 f hf => h.opening h1 h2 h3 f (hun f hf),
      fun hs k slot t hk ht => hmono t _ (h.slots hs k slot t (hl k slot t hk ht) ht),
      fun hs f hf => (h.sent hs f (hun f hf)).mono hmono⟩
  · exact ⟨fun h1 => absurd rfl h1, by simp, by simp⟩

/-- A stretch that is not the session's goes on to the next. -/
theorem SessionInv.proceed (h : SessionInv st issued epoch l un) (hst : st ≠ .idle)
    (hdial : st ≠ .dialing) (hs : st ≠ .session) (hs' : st' ≠ .session) :
    SessionInv st' issued epoch' l' un :=
  ⟨fun _ _ _ => h.opening hst hdial hs, fun h' => absurd h' hs', fun h' => absurd h' hs'⟩

/-- The session ends. -/
theorem SessionInv.idle : SessionInv .idle issued epoch l un :=
  ⟨fun h => absurd rfl h, by simp, by simp⟩

end

namespace Conn

variable {cfg : Config} {s : Conn}

def sessionInv (s : Conn) : Prop :=
  SessionInv s.stretch s.issued s.epoch s.loop s.unanswered

theorem sessionInv_iff {p : Pc} (hpc : s.pc = p) :
    s.sessionInv ↔ SessionInv p.stretch s.issued s.epoch s.loop s.unanswered := by
  rw [sessionInv, stretch, hpc]

theorem sessionInv_supStep (h : s.sessionInv) {e : SupEvent}
    (hst : (s.supStep cfg e).stretch = s.stretch ∨ (s.supStep cfg e).stretch = .idle) :
    (s.supStep cfg e).sessionInv :=
  h.stay hst (fun _ _ => id) (fun _ _ _ hk _ => hk) (fun _ => id)

/-- Frames of the loop carry the id of their call. -/
theorem ownFrame_request {t : Ticket} {frame : Bytes} {sh : Shared} {id : UInt64}
    {messageType : UInt16} {flags : UInt8} {payload : Bytes}
    (henc : encodeOutbound sh messageType flags id payload = .ok frame)
    (hid : s.issued t = some (id, s.epoch)) :
    OwnFrame s.issued s.epoch (sent (.request t) frame) := by
  simp only [sent, decodeFrameHeader_of_outbound henc, OwnFrame]
  exact hid

theorem ownFrame_send {t : Ticket} {frame : Bytes} {sh : Shared} {id : UInt64}
    {messageType : UInt16} {payload : Bytes}
    (henc : encodeOutbound sh messageType 0 (sendCorrelationId messageType payload id) payload =
      .ok frame)
    (hid : s.issued t = some (id, s.epoch)) :
    OwnFrame s.issued s.epoch (sent (.send t) frame) := by
  simp only [sent, decodeFrameHeader_of_outbound henc, OwnFrame, sendCorrelationId]
  split
  · exact .inl rfl
  · exact .inr hid

/-- A call whose command is admitted in its own epoch. -/
theorem issued_of_own {id : UInt64} {t : Ticket} (h : ∃ e, s.issued t = some (id, e))
    (hown : s.ofEpoch t) : s.issued t = some (id, s.epoch) := by
  obtain ⟨e, he⟩ := h
  simp only [ofEpoch, he, Option.map_some, Option.some.injEq] at hown
  rw [he, hown]

theorem sessionInv_turn (hpc : s.pc = .session) {t : Turn} {origin : Origin}
    (ht : t.result = some .disconnected ∨ SessionInv .session s.issued s.epoch t.loop
      (s.unanswered ++ (t.effects.filterMap Effect.frame?).map (sent origin))) :
    (s.turn cfg origin t).sessionInv := by
  rw [turn_eq]
  rcases ht with ht | ht
  · have hidle : (afterTurn cfg s.task t.result).sup.pc.stretch = .idle := by
      rw [ht]
      exact afterTurn_disconnected cfg hpc
    simp only [sessionInv, stretch, pc, hidle]
    exact .idle
  · simp only [sessionInv, stretch, pc] at hpc ⊢
    rcases afterTurn_stretch cfg s.task t.result with hst | hst
    · rw [hst, hpc]
      exact ht
    · rw [hst]
      exact .idle

/-- A served command keeps the invariant if the id it carries is its epoch's. -/
theorem sessionInv_command (hb : Base s) (h : s.sessionInv) {written : Result Unit}
    (hown : OwnIds s (.command written)) : (s.command cfg written).sessionInv := by
  unfold command
  split
  · rename_i c cs hpc hcs
    obtain ⟨-, hcorr, -⟩ := (negotiated_iff hpc).1 hb.negotiated
    have hs : SessionInv .session s.issued s.epoch s.loop s.unanswered := (sessionInv_iff hpc).1 h
    have hc : s.AdmitsOwn c := hown hpc c (by simp [hcs])
    have hissued : c.Issued s.issued := hb.tickets.command c (by simp [hcs])
    split
    · refine sessionInv_supStep ?_ (supStep_stretch (by simp) (by simp) (by simp) (by simp))
      refine sessionInv_turn (by exact hpc) (.inr ?_)
      simpa [Loop.onCommand, Loop.next, Effect.frame?, List.filterMap_cons] using hs
    · refine sessionInv_supStep ?_ (supStep_stretch (by simp) (by simp) (by simp) (by simp))
      refine sessionInv_turn (by exact hpc) (.inr ?_)
      -- a `Close` fails every slot and writes nothing
      have hw := Loop.frame?_failAll s.loop
      refine hs.stay (.inl rfl) (fun _ _ hp => hp) ?_ ?_
      · intro k slot t hk
        simp [Loop.onCommand, Loop.finish, Loop.failAll] at hk
      · simp only [Loop.onCommand, Loop.finish, List.filterMap_append, hw]
        simp [Effect.frame?]
    · rename_i id generation messageType flags payload t
      have hreq := Loop.onRequest_requested (l := s.loop) hcorr id generation messageType flags
        payload t written
      refine sessionInv_turn (by exact hpc) ?_
      simp only [Loop.onCommand]
      generalize s.loop.onRequest s.shared id generation messageType flags payload t written = turn
        at hreq
      have hslot : ∀ k slot t', turn.result ≠ some .disconnected →
          turn.loop.correlated.lookup k = some slot → slot.response = some t' →
          s.loop.correlated.lookup k = some slot ∨ k = id ∧ t' = t := by
        intro k slot t' hlive hk ht'
        exact (hreq.slot hlive hk ht').imp_right fun hnew => ⟨hnew.1, hnew.2.1⟩
      cases hreq with
      | stale => exact .inr (by simpa [Loop.next, Effect.frame?, List.filterMap_cons] using hs)
      | refused hg hw =>
        refine .inr ?_
        simp only [hw, List.map_nil, List.append_nil]
        exact hs.stay (.inl rfl) (fun _ _ hp => hp) (fun _ _ _ hk _ => hk) (fun _ hf => hf)
      | written hg hroom henc hw =>
        -- the id of an admitted request is of this epoch
        have hid := issued_of_own hissued (hc t rfl (congrArg some hg))
        refine .inr ⟨by simp, fun _ k slot t' hk ht' => ?_, fun _ f hf => ?_⟩
        · rcases hslot k slot t' (by simp) hk ht' with hk | ⟨rfl, rfl⟩
          · exact hs.slots rfl k slot t' hk ht'
          · exact hid
        · simp only [hw, List.map_cons, List.map_nil] at hf
          rcases List.mem_append.1 hf with hf | hf
          · exact hs.sent rfl f hf
          · rw [List.mem_singleton.1 hf]
            exact ownFrame_request henc hid
      | failed => exact .inl rfl
    · rename_i id generation messageType payload t
      obtain ⟨effects, heq, hw⟩ := Loop.onSend_sent s.shared s.loop id generation
        messageType payload t written
      refine sessionInv_turn (by exact hpc) (.inr ?_)
      simp only [Loop.onCommand, heq, Loop.next]
      rcases hw with hw | ⟨frame, hg, henc, hw⟩
      · simpa [hw] using hs
      · have hid := issued_of_own hissued (hc t rfl (congrArg some hg))
        refine ⟨by simp, hs.slots, fun _ f hf => ?_⟩
        simp only [hw, List.map_cons, List.map_nil] at hf
        rcases List.mem_append.1 hf with hf | hf
        · exact hs.sent rfl f hf
        · rw [List.mem_singleton.1 hf]
          exact ownFrame_send henc hid
  · exact h

theorem sessionInv_cancel (hb : Base s) (h : s.sessionInv) : (s.cancel cfg).sessionInv := by
  unfold cancel
  split
  · rename_i id cause rest hpc hcan
    obtain ⟨-, -, hl⟩ := (negotiated_iff hpc).1 hb.negotiated
    have hs : SessionInv .session s.issued s.epoch s.loop s.unanswered := (sessionInv_iff hpc).1 h
    refine sessionInv_turn (by exact hpc) (.inr ?_)
    simp only [onCancel_silent hl, List.map_nil, List.append_nil]
    have hc := Loop.onCancel_canceled hl id
    generalize s.loop.onCancel id = turn at hc
    exact hs.stay (.inl rfl) (fun _ _ hp => hp) (fun k slot t hk ht => hc.slot hk ht) (fun _ hf => hf)
  · exact h

theorem mem_read {f : Sent} {frame : Bytes} {answers : Option ℕ}
    (hf : f ∈ (s.read frame answers).unanswered) : f ∈ s.unanswered :=
  (read_unanswered s frame answers).subset hf

theorem sessionInv_inbound (hb : Base s) (h : s.sessionInv) (frame : Bytes) (answers : Option ℕ)
    (written : Result Unit) : (s.inbound cfg frame answers written).sessionInv := by
  simp only [inbound]
  split
  · rename_i hpc
    obtain ⟨hcap, -, hl⟩ := (negotiated_iff hpc).1 hb.negotiated
    have hs : SessionInv .session s.issued s.epoch s.loop s.unanswered := (sessionInv_iff hpc).1 h
    refine sessionInv_turn (by exact hpc) ?_
    simp only [onFrame_silent hl hcap, List.map_nil, List.append_nil]
    have hf := (Loop.onFrame_framed hl hcap frame written).2
    generalize (s.loop.onFrame s.shared frame written).2 = turn at hf
    by_cases hlive : turn.result = some .disconnected
    · exact .inl hlive
    · exact .inr (hs.stay (.inl rfl) (fun _ _ hp => hp) (fun k slot t hk _ => hf.slot hlive hk)
        fun _ => mem_read)
  · exact h

theorem sessionInv_advance (h : s.sessionInv) (hown : OwnIds s .advance) :
    (s.advance cfg).sessionInv := by
  have ha := advance_advanced cfg s
  generalize s.advance cfg = s' at ha
  cases ha with
  | plain hst => exact h.stay hst (fun _ _ hp => hp) (fun _ _ _ hk _ => hk) (fun _ hf => hf)
  | negotiate h' =>
    rw [sessionInv_iff (p := .token) (by exact h')]
    exact ⟨fun _ hd => absurd rfl hd, by simp [Pc.stretch], by simp [Pc.stretch]⟩
  | collect hpc h' =>
    rw [sessionInv_iff (p := .restoring) (by exact h')]
    exact ((sessionInv_iff hpc).1 h).proceed (by simp [Pc.stretch]) (by simp [Pc.stretch])
      (by simp [Pc.stretch]) (by simp [Pc.stretch])
  | restart hpc h' =>
    rw [sessionInv_iff (p := .announcing) (by exact h')]
    exact ((sessionInv_iff hpc).1 h).proceed (by simp [Pc.stretch]) (by simp [Pc.stretch])
      (by simp [Pc.stretch]) (by simp [Pc.stretch])
  | enter hpc h' =>
    rw [sessionInv_iff (p := .session) (by exact h')]
    -- only restore requests were written before, and none of them is left
    have hopen := ((sessionInv_iff hpc).1 h).opening (by simp [Pc.stretch]) (by simp [Pc.stretch])
      (by simp [Pc.stretch])
    refine ⟨fun _ _ hs => absurd rfl hs, fun _ k slot t hk => ?_, fun _ f hf => ?_⟩
    · simp [Loop.new] at hk
    · have hrestore := hopen f hf
      rw [hown hpc f hf] at hrestore
      cases hrestore
  | lose h' =>
    simp only [sessionInv, stretch, pc, h']
    exact .idle

theorem sessionInv_aside (h : s.sessionInv) {e : Event} (he : aside e = true) :
    (s.step cfg e).sessionInv := by
  have hu := untouched_step cfg s he
  have hst := stretch_step cfg s e
  unfold sessionInv
  rw [hu.issued, hu.epoch, hu.loop, hu.unanswered]
  generalize (s.step cfg e).stretch = st at hst
  cases hst with
  | same => exact h
  | idle => exact .idle
  | greeted _ hpc | restored _ hpc =>
    exact ((sessionInv_iff hpc).1 h).proceed (by simp [Pc.stretch]) (by simp [Pc.stretch])
      (by simp [Pc.stretch]) (by simp)
  | negotiating hadv | dialed hadv | collected hadv | announced hadv | entered hadv =>
    subst hadv
    cases he

/-- **One step keeps the invariant** under the condition on ids. -/
theorem sessionInv_step (s : Conn) (e : Event) (hb : Base s) (h : s.sessionInv) (hown : OwnIds s e) :
    (s.step cfg e).sessionInv := by
  cases e with
  | command written => exact sessionInv_command hb h hown
  | cancel => exact sessionInv_cancel hb h
  | inbound frame answers written => exact sessionInv_inbound hb h frame answers written
  | advance => exact sessionInv_advance h hown
  | allocate kind messageType payload =>
    simp only [step, allocate]
    split
    · exact h
    · refine h.stay (.inl rfl) (fun t p hp => ?_) (fun _ _ _ hk _ => hk) (fun _ hf => hf)
      -- the new call has a ticket of its own
      have hne : t ≠ s.nextTicket := by
        rintro rfl
        rw [hb.ids.issued_next] at hp
        cases hp
      simp only [Function.update_of_ne hne, hp]
  | readError =>
    simp only [step, readError]
    split
    · rename_i hpc
      exact sessionInv_turn (by exact hpc) (.inl rfl)
    · exact h
  | hangup =>
    simp only [step, hangup]
    split
    · rename_i hpc _
      refine sessionInv_supStep ?_ (supStep_stretch (by simp) (by simp) (by simp) (by simp))
      refine sessionInv_supStep ?_ (supStep_stretch (by simp) (by simp) (by simp) (by simp))
      refine sessionInv_turn (by exact hpc) (.inr ?_)
      refine ((sessionInv_iff hpc).1 h).stay (.inl rfl) (fun _ _ hp => hp) ?_ ?_
      · intro k slot t hk
        simp [Loop.onHangup, Loop.finish, Loop.failAll] at hk
      · simp only [Loop.onHangup, Loop.finish, List.nil_append, Loop.frame?_failAll]
        simp
    · exact sessionInv_supStep h (supStep_stretch (by simp) (by simp) (by simp) (by simp))
    · exact h
  | dial result =>
    simp only [step, dial]
    split
    · rename_i hpc
      rw [sessionInv_iff (p := .handshake) (by exact supStep_dial hpc)]
      exact ⟨by simp, by simp [Pc.stretch], by simp⟩
    · exact sessionInv_supStep h (supStep_dial_ne (by assumption))
  | restoreNext key written =>
    simp only [step, restoreNext]
    split
    · rename_i hpc _ _
      have hopen := (sessionInv_iff hpc).1 h
      -- only restore requests are out before the session
      have hwrote : ∀ frame, SessionInv .restoring s.issued s.epoch s.loop
          (s.unanswered ++ [sent (.restore key) frame]) := by
        refine fun frame => ⟨fun h1 h2 h3 f hf => ?_, by simp, by simp⟩
        rcases List.mem_append.1 hf with hf | hf
        · exact hopen.opening h1 h2 h3 f hf
        · rw [List.mem_singleton.1 hf, sent_origin]
          rfl
      split
      · exact h
      · split
        · rw [sessionInv_iff (p := .restoring) (by exact hpc)]
          exact hwrote _
        · rw [sessionInv_iff (p := .restoring) (by exact hpc)]
          exact hwrote _
    · exact h
  | restoreRead frame answers =>
    have hread : (s.read frame answers).sessionInv :=
      h.stay (.inl rfl) (fun _ _ hp => hp) (fun _ _ _ hk _ => hk) fun _ => mem_read
    simp only [step, restoreRead]
    repeat' split
    all_goals first | exact hread | exact h
  | restoreFail =>
    simp only [step, restoreFail]
    split <;> exact h
  | _ => exact sessionInv_aside h rfl

/-- Requests of one epoch with one id are one request, and it is written once. -/
theorem distinctIds (hb : Base s) (h : s.sessionInv) : DistinctIds s := by
  intro hpc
  have hsent := ((sessionInv_iff hpc).1 h).sent rfl
  have hnodup : (s.unanswered.filterMap (·.origin.ticket?)).Nodup :=
    (List.nodup_append.1 hb.tickets.nodup).2.1
  rw [List.Nodup, List.pairwise_filterMap] at hnodup
  rw [List.Nodup, List.pairwise_map]
  refine (hnodup.sublist List.filter_sublist).imp_of_mem fun {f f'} hf hf' hne heq => ?_
  obtain ⟨hf, hr⟩ := List.mem_filter.1 hf
  obtain ⟨hf', hr'⟩ := List.mem_filter.1 hf'
  have h1 := hsent f hf
  have h2 := hsent f' hf'
  -- frames with one id are of one call, and a call is in flight once
  cases ho : f.origin with
  | request t =>
    cases ho' : f'.origin with
    | request t' =>
      simp only [OwnFrame, ho, ho'] at h1 h2
      have htt : t = t' := hb.ids.inj t t' _ h1 (by rw [heq]; exact h2)
      exact hne t (by rw [ho]; rfl) t' (by rw [ho']; rfl) htt
    | restore | send | queued => simp [ho', Origin.isRequest] at hr'
  | restore | send | queued => simp [ho, Origin.isRequest] at hr

/-- An inbound frame answers the call whose frame it answers. -/
theorem delivered_own (hb : Base s) (h : s.sessionInv) {frame : Bytes} {answers : Option ℕ}
    {written : Result Unit} (hhonest : Honest s (.inbound frame answers written))
    (hpc : s.pc = .session) {t : Ticket} {payload : Bytes}
    (hmem : Effect.respond t (.ok payload) ∈ (s.loop.onFrame s.shared frame written).2.effects) :
    (∃ f, s.source answers = some f ∧ f.origin.ticket? = some t) ∧ FinalAnswer frame payload := by
  obtain ⟨hcap, -, hl⟩ := (negotiated_iff hpc).1 hb.negotiated
  have hs := (sessionInv_iff hpc).1 h
  have hf := (Loop.onFrame_framed hl hcap frame written).2
  obtain ⟨header, slot, mask, hh, hcorr, hfinal, hd, hslot, hr⟩ := hf.responded hmem
  have hissued := hs.slots rfl _ slot t hslot hr
  obtain ⟨f, hsrc, hfc⟩ := Option.map_eq_some_iff.1 (hhonest header (by rw [hh]; rfl) hcorr)
  have hfmem : f ∈ s.unanswered := by
    obtain ⟨i, rfl, hi⟩ := Option.bind_eq_some_iff.1 hsrc
    exact List.mem_of_getElem? hi
  have hown := hs.sent rfl f hfmem
  refine ⟨⟨f, hsrc, ?_⟩, header, mask, hh, hfinal, hd⟩
  -- the frame answered and the slot have one id, which was issued to one call
  cases ho : f.origin with
  | request t0 =>
    simp only [OwnFrame, ho, hfc] at hown
    rw [hb.ids.inj t0 t _ hown hissued]
    rfl
  | send t0 =>
    simp only [OwnFrame, ho, hfc] at hown
    rw [hb.ids.inj t0 t _ (hown.resolve_left hcorr) hissued]
    rfl
  | restore | queued => simp [OwnFrame, ho] at hown

theorem ownDeliveries_step (s : Conn) (e : Event) (hb : Base s) (h : s.sessionInv)
    (hhonest : Honest s e) (hlog : OwnDeliveries s.log) : OwnDeliveries (s.step cfg e).log := by
  obtain ⟨new, hnew, hex⟩ := log_step cfg s e hb.negotiated
  intro serial t payload frame source hmem
  rw [hnew] at hmem
  rcases List.mem_append.1 hmem with hmem | hmem
  · exact hlog serial t payload frame source hmem
  · obtain ⟨answers, written, rfl, hpc, -, rfl, heff⟩ := hex _ hmem
    exact delivered_own hb h hhonest hpc heff

end Conn

/-- A frame the broker vouched for where it wrote it is honest where it is read. -/
theorem honest_of_followed {s : Link} {e : LinkEvent} (h : s.Followed fun _ => True) :
    s.Through Honest e := by
  intro e' he
  cases e' with
  | inbound frame answers written =>
    obtain ⟨-, -, rfl, rest, hread⟩ := Link.read_of_inbound he
    intro header hheader hcorr
    obtain ⟨f, hf, -, hid⟩ := Link.answers_of_read h hread header hheader hcorr
    rw [Option.mem_def.1 hf, Option.map_some, hid]
  | _ => trivial

open Conn Link in
/-- **Responses reach their own callers.** In every run whose session loops admit only ids
allocated since the ids last restarted and start with no restore request unanswered, no two
outstanding requests share an id. If no read that holds bytes is dropped and the broker
answers each frame under its own correlation, every payload handed to a caller is the final
answer to that caller's own frame. -/
theorem responses_attributed (cfg : Config) (transport : Transport) (es : List LinkEvent)
    (h : Along (Link.step cfg) (Through OwnIds) (.new cfg transport) es) :
    DistinctIds (run (Link.step cfg) (.new cfg transport) es).conn ∧
      (Along (Link.step cfg) (fun s e => s.WholeReads e ∧ s.Vouches (fun _ => True) e)
          (.new cfg transport) es →
        OwnDeliveries (run (Link.step cfg) (.new cfg transport) es).conn.log) := by
  have hstart : Base (Link.new cfg transport).conn ∧ (Link.new cfg transport).conn.sessionInv :=
    ⟨base_new cfg, SessionInv.idle⟩
  have hstep : ∀ s e, Base s ∧ s.sessionInv → OwnIds s e →
      Base (s.step cfg e) ∧ (s.step cfg e).sessionInv :=
    fun s e hi ho => ⟨base_step s e hi.1, sessionInv_step s e hi.1 hi.2 ho⟩
  constructor
  · have hinv := along_inv (I := fun s : Link => Base s.conn ∧ s.conn.sessionInv)
      (fun s e hi ho => through_step hstep hi ho) hstart h
    exact distinctIds hinv.1 hinv.2
  · intro hwire
    have hinv := along_inv
      (I := fun s : Link => ((Base s.conn ∧ s.conn.sessionInv) ∧ OwnDeliveries s.conn.log) ∧
        s.Followed fun _ => True)
      (fun s e hi hc => by
        obtain ⟨⟨hi, hlog⟩, hf⟩ := hi
        obtain ⟨ho, hw, hv⟩ := hc
        refine ⟨through_step (c := fun s e => OwnIds s e ∧ Honest s e)
          (I := fun s => (Base s ∧ s.sessionInv) ∧ OwnDeliveries s.log) (fun s e hi hc => ?_)
          ⟨hi, hlog⟩ fun e' he => ⟨ho e' he, honest_of_followed hf e' he⟩, followed_step hf hw hv⟩
        exact ⟨hstep s e hi.1 hc.1, ownDeliveries_step s e hi.1.1 hi.1.2 hc.2 hi.2⟩)
      ⟨⟨hstart, by simp [OwnDeliveries, Link.new, Link.fresh, Conn.new]⟩, followed_fresh _ _ _⟩
      (h.and hwire)
    exact hinv.1.2

section Decidable

variable (s : Conn)

instance (t : Ticket) : Decidable (s.ofEpoch t) :=
  inferInstanceAs (Decidable ((s.issued t).map Prod.snd = some s.epoch))

instance (c : Command) : Decidable (s.AdmitsOwn c) :=
  inferInstanceAs (Decidable (∀ t ∈ c.ticket?, _ → s.ofEpoch t))

instance (e : Event) : Decidable (OwnIds s e) :=
  match e with
  | .command _ => inferInstanceAs (Decidable (_ → ∀ c ∈ s.commands.head?, s.AdmitsOwn c))
  | .advance => inferInstanceAs (Decidable (_ → ∀ f ∈ s.unanswered, f.origin.isRestore = false))
  | .allocate .. | .stamp .. | .enqueue .. | .resume .. | .abandon .. | .connect | .requestClose
  | .close | .register .. | .deactivate .. | .receive | .hangup | .token .. | .dial .. | .auth ..
  | .restoreNext .. | .restoreRead .. | .restoreFail | .restored | .wake | .cancel | .inbound ..
  | .readError => isTrue trivial

instance (e : Event) : Decidable (Honest s e) :=
  match e with
  | .inbound frame _ _ =>
    inferInstanceAs (Decidable (∀ header ∈ (decodeFrameHeader frame).toOption, _ → _ = _))
  | .allocate .. | .stamp .. | .enqueue .. | .resume .. | .abandon .. | .connect | .requestClose
  | .close | .register .. | .deactivate .. | .receive | .hangup | .token .. | .dial .. | .auth ..
  | .restoreNext .. | .restoreRead .. | .restoreFail | .restored | .wake | .cancel | .advance
  | .command .. | .readError => isTrue trivial

end Decidable

/-- One request, served and answered in its own session. -/
def answeredRun : List LinkEvent :=
  wired (firstSession 8 ++ requestRun 100 1 ++ [.command (.ok ())]) ++
    heard (replyFrame 100 1 [7]) (some ⟨1, 100, .request 1⟩)

theorem responses_attributed_one :
    Obs.delivered 1 1 [7] (replyFrame 100 1 [7]) (some ⟨1, 100, .request 1⟩) ∈
        (run (Link.step ⟨4, ⟨true, 0⟩⟩) (.new ⟨4, ⟨true, 0⟩⟩ .tcp) answeredRun).conn.log ∧
      OwnDeliveries
        (run (Link.step ⟨4, ⟨true, 0⟩⟩) (.new ⟨4, ⟨true, 0⟩⟩ .tcp) answeredRun).conn.log :=
  ⟨by decide +kernel,
    (responses_attributed ⟨4, ⟨true, 0⟩⟩ .tcp answeredRun (by decide +kernel)).2
      (by decide +kernel)⟩

/-- A call allocates its id in one session and is stamped and sent after the
loss, before the ids restart; a call of the next session gets the same id. -/
def sharedIdRun : List LinkEvent :=
  wired (firstSession 8 ++ [.allocate (.request 0) 100 [], .readError, .advance, .stamp 1,
    .enqueue 1, .advance, .wake] ++ dialRun 8 ++ enterRun ++ requestRun 101 2 ++
    [.command (.ok ()), .command (.ok ())])

/-- The body of the answer to the first call, which holds the wire form of an answer to the
second. -/
def nestedFrame : Bytes := replyFrame 100 1 (writeTcpFrame (replyFrame 101 2 [9]))

/-- The answer to the first of two calls is half read when a command wins the pass. -/
def nestedRun : List LinkEvent :=
  wired (firstSession 8 ++ requestRun 100 1 ++ requestRun 101 2 ++
    [.command (.ok ()), .command (.ok ()), .connect]) ++
    [.write ⟨writeTcpFrame nestedFrame, some ⟨1, 100, .request 1⟩⟩, .arrive 19, .poll (.ok ()),
      .conn (.command (.ok ())), .arrive 20, .poll (.ok ())]

/-- Two outstanding requests carry id 1, and the answer to the first is handed to
the caller of the second, though the broker is honest and no read is dropped. In a run with
distinct ids a dropped read hands the second caller bytes from the middle of the first one's
answer. -/
theorem responses_swapped :
    (Along (Link.step ⟨4, ⟨true, 0⟩⟩) (fun s e => s.WholeReads e ∧ s.Vouches (fun _ => True) e)
          (.new ⟨4, ⟨true, 0⟩⟩ .tcp)
          (sharedIdRun ++ heard (replyFrame 100 1 [7]) (some ⟨1, 100, .request 1⟩)) ∧
        ¬ DistinctIds (run (Link.step ⟨4, ⟨true, 0⟩⟩) (.new ⟨4, ⟨true, 0⟩⟩ .tcp) sharedIdRun).conn ∧
        ¬ OwnDeliveries (run (Link.step ⟨4, ⟨true, 0⟩⟩) (.new ⟨4, ⟨true, 0⟩⟩ .tcp)
          (sharedIdRun ++
            heard (replyFrame 100 1 [7]) (some ⟨1, 100, .request 1⟩))).conn.log) ∧
      (Along (Link.step ⟨4, ⟨true, 0⟩⟩) (fun s e => s.Through OwnIds e ∧ s.Vouches (fun _ => True) e)
          (.new ⟨4, ⟨true, 0⟩⟩ .tcp) nestedRun ∧
        ¬ OwnDeliveries
          (run (Link.step ⟨4, ⟨true, 0⟩⟩) (.new ⟨4, ⟨true, 0⟩⟩ .tcp) nestedRun).conn.log) := by
  refine ⟨⟨by decide +kernel, fun h => ?_, fun h => ?_⟩, by decide +kernel, fun h => ?_⟩
  · exact absurd (h (by decide +kernel)) (by decide +kernel)
  · obtain ⟨⟨f, hf, ht⟩, -⟩ := h 2 2 [7] (replyFrame 100 1 [7]) (some ⟨1, 100, .request 1⟩)
      (by decide +kernel)
    cases hf
    exact absurd ht (by decide)
  · obtain ⟨⟨f, hf, -⟩, -⟩ := h 1 2 [9] (replyFrame 101 2 [9]) none (by decide +kernel)
    cases hf

end Fitz

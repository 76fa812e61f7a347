import Fitz.Proof.Frames

/-!
# Turns of the session loop

What one pass of the `select!` can do in a session that correlates its requests,
which every session does once a HELLO was accepted. `Requested`, `Canceled` and
`Framed` list the outcomes of the three branches, guards included; the
invariants of the connection are proved from these tables.
-/

namespace Fitz

/-- The frame an effect hands to the transport. -/
def Effect.frame? : Effect → Option Bytes
  | .write frame => some frame
  | _ => none

/-- The payload an effect hands to a caller. -/
def Effect.payload? : Effect → Option (Ticket × Bytes)
  | .respond t (.ok payload) => some (t, payload)
  | _ => none

namespace Loop

/-- A loop all of whose requests are correlated. -/
structure Correlating (l : Loop) : Prop where
  pending : l.pending = ∅
  queued : l.queued = ∅

theorem correlating_new (generation : UInt64) : (Loop.new generation).Correlating := ⟨rfl, rfl⟩

variable {sh : Shared} {l : Loop}

/-! ## Effects that write nothing -/

@[simp] theorem frame?_refuse (response : Option Ticket) (error : FitzError) :
    (refuse response error).filterMap Effect.frame? = [] := by
  cases response <;> rfl

@[simp] theorem frame?_releaseOpt (response : Option Ticket) :
    (releaseOpt response).filterMap Effect.frame? = [] := by
  cases response <;> rfl

@[simp] theorem frame?_failAll (l : Loop) : l.failAll.2.filterMap Effect.frame? = [] := by
  simp only [failAll, List.filterMap_map]
  exact List.filterMap_eq_nil_iff.2 fun _ _ => rfl

@[simp] theorem payload?_failAll (l : Loop) : l.failAll.2.filterMap Effect.payload? = [] := by
  simp only [failAll, List.filterMap_map]
  exact List.filterMap_eq_nil_iff.2 fun _ _ => rfl

/-! ## Commands -/

/-- A request in the loop `l`. -/
inductive Requested (sh : Shared) (l : Loop) (id generation : UInt64) (messageType : UInt16)
    (flags : UInt8) (payload : Bytes) (t : Ticket) : Turn → Prop
  | stale (h : generation ≠ l.sessionGeneration) :
      Requested sh l id generation messageType flags payload t
        (l.next [.respond t (.error .connectionClosed)])
  | refused {effects : List Effect} (h : generation = l.sessionGeneration)
      (hw : effects.filterMap Effect.frame? = []) :
      Requested sh l id generation messageType flags payload t
        ⟨{ l with canceled := l.canceled.erase id }, effects, none⟩
  | written {frame : Bytes} {effects : List Effect} (h : generation = l.sessionGeneration)
      (hroom : l.correlated.entries.length < sh.maxInFlight.toNat)
      (henc : encodeOutbound sh messageType flags id payload = .ok frame)
      (hw : effects.filterMap Effect.frame? = [frame]) :
      Requested sh l id generation messageType flags payload t
        ⟨{ l with
            canceled := l.canceled.erase id
            correlated := l.correlated.insert id
              ⟨id, if id ∈ l.canceled then none else some t⟩ }, effects, none⟩
  | failed {frame : Bytes} {loop : Loop} {effects : List Effect}
      (h : generation = l.sessionGeneration)
      (henc : encodeOutbound sh messageType flags id payload = .ok frame)
      (hw : effects.filterMap Effect.frame? = [frame]) :
      Requested sh l id generation messageType flags payload t
        ⟨loop, effects, some .disconnected⟩

/-- A slot with a sender was there before the request, or is the one it leaves. -/
theorem Requested.slot {id generation k : UInt64} {messageType : UInt16} {flags : UInt8}
    {payload : Bytes} {t t' : Ticket} {turn : Turn} {slot : PendingRequest}
    (h : Requested sh l id generation messageType flags payload t turn)
    (hlive : turn.result ≠ some .disconnected)
    (hk : turn.loop.correlated.lookup k = some slot) (ht : slot.response = some t') :
    l.correlated.lookup k = some slot ∨ k = id ∧ t' = t ∧ generation = l.sessionGeneration ∧
      ∃ frame, encodeOutbound sh messageType flags id payload = .ok frame ∧
        turn.effects.filterMap Effect.frame? = [frame] ∧ turn.result = none := by
  cases h with
  | stale => exact .inl hk
  | refused => exact .inl hk
  | failed => exact absurd rfl hlive
  | @written frame effects hg hroom henc hw =>
    by_cases heq : k = id
    · -- its own slot: it has the sender, unless a tombstone was there
      subst heq
      rw [AList.lookup_insert] at hk
      cases hk
      simp only at ht
      split at ht
      · cases ht
      · cases ht
        exact .inr ⟨rfl, rfl, hg, frame, henc, hw, rfl⟩
    · rw [AList.lookup_insert_ne heq] at hk
      exact .inl hk

theorem onRequest_requested (hcorr : supervisorCorrelationEnabled sh = true)
    (id generation : UInt64) (messageType : UInt16) (flags : UInt8) (payload : Bytes) (t : Ticket)
    (written : Result Unit) :
    Requested sh l id generation messageType flags payload t
      (l.onRequest sh id generation messageType flags payload t written) := by
  unfold onRequest
  split
  · rename_i h
    exact .stale h
  · rename_i h
    have hgen : generation = l.sessionGeneration := not_not.1 h
    have htomb : (if id ∈ l.canceled then [Effect.release t] else []).filterMap Effect.frame? = [] := by
      split <;> rfl
    simp only [requestCorrelated]
    split
    · exact .refused hgen (by rw [List.filterMap_append, htomb]; simp [next])
    · rename_i hroom
      split
      · exact .refused hgen (by rw [List.filterMap_append, htomb]; simp [next])
      · rename_i frame henc
        split
        · refine .written hgen (not_le.1 hroom) henc ?_
          rw [List.filterMap_append, htomb]
          simp [next, Effect.frame?]
        · refine .failed hgen henc ?_
          rw [List.filterMap_append, htomb]
          simp [finish, Effect.frame?]

/-- A send leaves the loop as it is and writes at most its own frame. -/
theorem onSend_sent (sh : Shared) (l : Loop) (id generation : UInt64) (messageType : UInt16)
    (payload : Bytes) (t : Ticket) (written : Result Unit) :
    ∃ effects, l.onSend sh id generation messageType payload t written = l.next effects ∧
      (effects.filterMap Effect.frame? = [] ∨ ∃ frame, generation = l.sessionGeneration ∧
        encodeOutbound sh messageType 0 (sendCorrelationId messageType payload id) payload =
          .ok frame ∧ effects.filterMap Effect.frame? = [frame]) := by
  unfold onSend
  split
  · exact ⟨_, rfl, .inl rfl⟩
  · rename_i h
    split
    · exact ⟨_, rfl, .inl rfl⟩
    · rename_i frame henc
      split
      · exact ⟨_, rfl, .inr ⟨frame, not_not.1 h, henc, rfl⟩⟩
      · exact ⟨_, rfl, .inr ⟨frame, not_not.1 h, henc, rfl⟩⟩

/-! ## Cancellations -/

/-- A cancellation in the loop `l`. -/
inductive Canceled (l : Loop) (id : UInt64) : Turn → Prop
  | outstanding {slot : PendingRequest} (h : l.correlated.lookup id = some slot) :
      Canceled l id
        ({ l with correlated := l.correlated.insert id { slot with response := none } }.next
          (releaseOpt slot.response))
  | early (h : l.correlated.lookup id = none) :
      Canceled l id ({ l with canceled := insert id l.canceled }.next [])

/-- A slot with a sender was there before the cancellation. -/
theorem Canceled.slot {id k : UInt64} {turn : Turn} {slot : PendingRequest} {t : Ticket}
    (h : Canceled l id turn) (hk : turn.loop.correlated.lookup k = some slot)
    (ht : slot.response = some t) : l.correlated.lookup k = some slot := by
  cases h with
  | outstanding =>
    simp only [next] at hk
    by_cases heq : k = id
    · -- the slot of the canceled request has lost its sender
      subst heq
      rw [AList.lookup_insert] at hk
      cases hk
      cases ht
    · rwa [AList.lookup_insert_ne heq] at hk
  | early => exact hk

theorem onCancel_canceled (hl : l.Correlating) (id : UInt64) : Canceled l id (l.onCancel id) := by
  unfold onCancel cancelAllPending
  cases h : l.correlated.lookup id with
  | some slot => exact .outstanding h
  | none =>
    have hp : l.cancelPending id = none := by simp [cancelPending, hl.pending]
    have hq : l.cancelQueued id = none := by simp [cancelQueued, hl.queued]
    simp only [hp, hq]
    exact .early h

/-! ## Inbound frames -/

/-- An inbound frame in the loop `l`. -/
inductive Framed (l : Loop) (frame : Bytes) : Turn → Prop
  | ended {loop : Loop} {effects : List Effect} (hw : effects.filterMap Effect.frame? = [])
      (hp : effects.filterMap Effect.payload? = []) :
      Framed l frame ⟨loop, effects, some .disconnected⟩
  | ignored : Framed l frame (l.next [])
  | published {messageType : UInt16} {payload : Bytes} :
      Framed l frame (l.next [.publish messageType payload])
  | answered {header : FrameHeader} {slot : PendingRequest} {payload : Bytes} {mask : UInt16}
      (hh : decodeFrameHeader frame = .ok header) (hcorr : header.correlationId ≠ 0)
      (hf : header.flags &&& responseFinal ≠ 0)
      (hd : Wire3.decode (frame.drop header.payloadStart) header.messageType header.flags =
        .ok (payload, mask))
      (hslot : l.correlated.lookup header.correlationId = some slot) :
      Framed l frame
        ({ l with correlated := l.correlated.erase header.correlationId }.next
          (slot.response.elim [] fun t => [.respond t (.ok payload)]))

/-- A slot was there before the frame. -/
theorem Framed.slot {frame : Bytes} {turn : Turn} {k : UInt64} {slot : PendingRequest}
    (h : Framed l frame turn) (hlive : turn.result ≠ some .disconnected)
    (hk : turn.loop.correlated.lookup k = some slot) : l.correlated.lookup k = some slot := by
  cases h with
  | ended => exact absurd rfl hlive
  | ignored | published => exact hk
  | @answered header _ _ _ _ _ _ _ _ =>
    simp only [next] at hk
    by_cases heq : k = header.correlationId
    · subst heq
      simp [AList.lookup_erase] at hk
    · rwa [AList.lookup_erase_ne heq] at hk

/-- A payload handed to a caller came through its slot, from a final frame. -/
theorem Framed.responded {frame : Bytes} {turn : Turn} {t : Ticket} {payload : Bytes}
    (h : Framed l frame turn) (hmem : .respond t (.ok payload) ∈ turn.effects) :
    ∃ header slot mask, decodeFrameHeader frame = .ok header ∧ header.correlationId ≠ 0 ∧
      header.flags &&& responseFinal ≠ 0 ∧
      Wire3.decode (frame.drop header.payloadStart) header.messageType header.flags =
        .ok (payload, mask) ∧
      l.correlated.lookup header.correlationId = some slot ∧ slot.response = some t := by
  cases h with
  | @ended _ effects hw hp =>
    have hpay : (t, payload) ∈ effects.filterMap Effect.payload? :=
      List.mem_filterMap.2 ⟨_, hmem, rfl⟩
    rw [hp] at hpay
    cases hpay
  | ignored => cases hmem
  | published => simp [next] at hmem
  | @answered header slot payload' mask hh hcorr hf hd hslot =>
    simp only [next] at hmem
    cases hr : slot.response with
    | none => simp [hr] at hmem
    | some t' =>
      simp only [hr, Option.elim_some, List.mem_singleton, Effect.respond.injEq,
        Except.ok.injEq] at hmem
      obtain ⟨rfl, rfl⟩ := hmem
      exact ⟨header, slot, mask, hh, hcorr, hf, hd, hslot, hr⟩

theorem applyServerHello_repeated (hcap : sh.capabilities ≠ 0) (payload : Bytes) (mask : UInt16) :
    applyServerHello sh payload mask =
      .error (.protocol "repeated HELLO cannot renegotiate an established session") := by
  simp [applyServerHello, hcap, throw, throwThe, MonadExceptOf.throw, bind, Except.bind]

/-- Once a HELLO was accepted, `decode_incoming` changes no atomic, and a record
it returns is the frame's own. -/
theorem decodeIncoming_ok (hcap : sh.capabilities ≠ 0) {frame : Bytes} {sh' : Shared}
    {records : List IncomingRecord} (h : decodeIncoming sh frame = .ok (sh', records)) :
    sh' = sh ∧ (records = [] ∨ ∃ header payload mask, decodeFrameHeader frame = .ok header ∧
      Wire3.decode (frame.drop header.payloadStart) header.messageType header.flags =
        .ok (payload, mask) ∧
      records = [⟨header.messageType, payload, header.correlationId,
        header.flags &&& responseFinal != 0⟩]) := by
  unfold decodeIncoming at h
  split at h
  · cases h
  · cases hh : decodeFrameHeader frame with
    | error e => simp [hh, bind, Except.bind] at h
    | ok header =>
      cases hd : Wire3.decode (frame.drop header.payloadStart) header.messageType header.flags with
      | error e => simp [hh, hd, bind, Except.bind] at h
      | ok r =>
        obtain ⟨payload, mask⟩ := r
        simp only [hh, hd, applyServerHello_repeated hcap, pure, Except.pure, bind, Except.bind,
          throw, throwThe, MonadExceptOf.throw] at h
        repeat' split at h
        all_goals first
          | cases h
            exact ⟨rfl, .inl rfl⟩
          | cases h
            exact ⟨rfl, .inr ⟨header, payload, mask, rfl, hd, rfl⟩⟩
          | cases h

theorem onFrame_framed (hl : l.Correlating) (hcap : sh.capabilities ≠ 0) (frame : Bytes)
    (written : Result Unit) :
    (l.onFrame sh frame written).1 = sh ∧ Framed l frame (l.onFrame sh frame written).2 := by
  unfold onFrame
  split
  · exact ⟨rfl, .ended (by simp) (by simp)⟩
  · rename_i sh' records hdec
    obtain ⟨rfl, hrec⟩ := decodeIncoming_ok hcap hdec
    refine ⟨rfl, ?_⟩
    rcases hrec with rfl | ⟨header, payload, mask, hh, hd, rfl⟩
    · exact .ignored
    · simp only [onRecords, onRecord]
      by_cases hcorr : header.correlationId = 0
      · simp only [hcorr, ne_eq, not_true_eq_false, ↓reduceIte, dispatch, hl.pending]
        exact .published
      · simp only [ne_eq, hcorr, not_false_eq_true, ↓reduceIte, dispatchCorrelated]
        cases hslot : l.correlated.lookup header.correlationId with
        | none => exact .ended (by simp) (by simp)
        | some slot =>
          by_cases hf : header.flags &&& responseFinal = 0
          · simp only [hf, bne_self_eq_false, Bool.false_eq_true, ↓reduceIte]
            exact .ignored
          · have hfinal : (header.flags &&& responseFinal != 0) = true := by simpa using hf
            simp only [hfinal, ↓reduceIte]
            have hturn := Framed.answered hh hcorr hf hd hslot
            cases hr : slot.response <;> simpa [next, hr] using hturn

end Loop

end Fitz

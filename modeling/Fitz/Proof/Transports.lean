import Fitz.Lib.Machine
import Fitz.Model.Session
import Fitz.Proof.Handshake
import Mathlib.Data.List.Forall2

/-!
# The two session loops agree

`loops_agree`: fed the same inputs from the same state, `run_io` and
`run_websocket` write the same frames, settle the same callers with the same
results, publish the same notifications and return at the same input with the same
result. They differ in one thing only: what the caller of a send is told when the
transport fails to write.
-/

namespace Fitz

open Machine

/-! ## Agreement -/

/-- What the two loops do to the outside at one place. -/
inductive Effect.Agrees : Effect → Effect → Prop
  | same (e : Effect) : Agrees e e
  /-- the error of a failed write, as TCP and as WebSocket reports it -/
  | failed (t : Ticket) (io : IoError) (text : String) :
      Agrees (.acknowledge t (.error (.fromIo io))) (.acknowledge t (.error (.transport text)))

/-- The notification an effect publishes. -/
def Effect.published? : Effect → Option (UInt16 × Bytes)
  | .publish messageType payload => some (messageType, payload)
  | _ => none

/-- What an effect tells the caller of a request. -/
def Effect.outcome? : Effect → Option (Ticket × Option (Result Bytes))
  | .respond t r => some (t, some r)
  | .release t => some (t, none)
  | _ => none

structure TurnsAgree (io ws : Turn) : Prop where
  loop : ws.loop = io.loop
  result : ws.result = io.result
  effects : List.Forall₂ Effect.Agrees io.effects ws.effects

theorem agrees_refl (l : List Effect) : List.Forall₂ Effect.Agrees l l :=
  List.forall₂_same.2 fun e _ => .same e

theorem TurnsAgree.of_eq {io ws : Turn} (h : ws = io) : TurnsAgree io ws :=
  h ▸ ⟨rfl, rfl, agrees_refl _⟩

/-- What depends on neither loop's account of a failed write is the same. -/
theorem filterMap_agrees {α : Type} {f : Effect → Option α}
    (hf : ∀ t r, f (.acknowledge t r) = none) {l l' : List Effect}
    (h : List.Forall₂ Effect.Agrees l l') : l.filterMap f = l'.filterMap f := by
  induction h with
  | nil => rfl
  | cons hab _ ih =>
    cases hab with
    | same e => rw [List.filterMap_cons, List.filterMap_cons, ih]
    | failed t io text => rw [List.filterMap_cons, List.filterMap_cons, hf, hf, ih]

/-! ## One pass -/

section

variable (sh : Shared) (l : Loop) (beat : Heartbeat) (write : Write)

/-- Both loops treat a request alike: a failed write ends the session, whatever the
error. -/
theorem onRequest_agrees (id generation : UInt64) (messageType : UInt16) (flags : UInt8)
    (payload : Bytes) (t : Ticket) :
    (WebSocket.onRequest sh l beat id generation messageType flags payload t
      write.webSocket).1 = l.onRequest sh id generation messageType flags payload t write.tcp := by
  unfold WebSocket.onRequest Loop.onRequest
  by_cases hgen : generation ≠ l.sessionGeneration
  · simp only [hgen, if_true, ne_eq, not_false_eq_true]
  · rw [if_neg hgen, if_neg hgen]
    by_cases hcorr : supervisorCorrelationEnabled sh = true
    · simp only [hcorr, if_true, Loop.requestCorrelated]
      split
      · rfl
      · cases encodeOutbound sh messageType flags id payload with
        | error e => rfl
        | ok frame =>
          cases write with
          | done => simp [Write.webSocket, Write.tcp, Loop.next]
          | failed io text => simp [Write.webSocket, Write.tcp, Loop.finish]
    · simp only [hcorr, Loop.requestPending]
      by_cases hpending : (l.pending.lookup messageType).getD [] = []
      · simp only [hpending, List.isEmpty_nil, if_true, ne_eq, not_true_eq_false, if_false]
        cases tryEncodeMessageFrame messageType payload with
        | error e => simp [Loop.finish]
        | ok frame =>
          cases write with
          | done => simp [Write.webSocket, Write.tcp, Loop.next]
          | failed io text => simp [Write.webSocket, Write.tcp, Loop.finish]
      · have hne : ((l.pending.lookup messageType).getD []).isEmpty = false := by
          simpa using hpending
        simp [hpending, hne, Loop.next]

/-- A send is told of a failed write in the terms of its transport. -/
theorem onSend_agrees (id generation : UInt64) (messageType : UInt16) (payload : Bytes)
    (t : Ticket) :
    TurnsAgree (l.onSend sh id generation messageType payload t write.tcp)
      (WebSocket.onSend sh l id generation messageType payload t write.webSocket) := by
  unfold WebSocket.onSend Loop.onSend
  split
  · exact .of_eq rfl
  · cases encodeOutbound sh messageType 0 (sendCorrelationId messageType payload id) payload with
    | error e => exact .of_eq rfl
    | ok frame =>
      cases write with
      | done => exact .of_eq rfl
      | failed io text =>
        exact ⟨rfl, rfl, .cons (.same _) (.cons (.failed t io text) .nil)⟩

/-- The loop over the records, with what came before it. -/
theorem onRecords_agrees (records : List IncomingRecord) (effects : List Effect) :
    WebSocket.onRecords l write.webSocket effects records =
      { l.onRecords write.tcp records with
        effects := effects ++ (l.onRecords write.tcp records).effects } := by
  induction records generalizing l effects with
  | nil => simp [WebSocket.onRecords, Loop.onRecords, Loop.next]
  | cons record records ih =>
    rw [WebSocket.onRecords, Loop.onRecords, Loop.onRecord]
    by_cases hcorr : record.correlationId ≠ 0
    · rw [if_pos hcorr, if_pos hcorr]
      cases l.dispatchCorrelated record.correlationId record.payload record.responseFinal with
      | error e => simp [Loop.finish]
      | ok r =>
        obtain ⟨l', answered⟩ := r
        simp only [Loop.next]
        rw [ih l']
        simp
    · rw [if_neg hcorr, if_neg hcorr]
      obtain ⟨l', dispatched, completed⟩ := l.dispatch record.messageType record.payload
      cases completed with
      | false =>
        simp only [Loop.next, Bool.false_eq_true, if_false]
        rw [ih l']
        simp
      | true =>
        -- a completed request lets the next of its type go out
        simp only [if_true, Loop.promote]
        cases (l'.queued.lookup record.messageType).getD [] with
        | nil =>
          simp only [Loop.next]
          rw [ih l']
          simp
        | cons next rest =>
          simp only
          cases tryEncodeMessageFrame record.messageType next.payload with
          | error e => simp [Loop.finish]
          | ok frame =>
            cases write with
            | failed io text => simp [Write.webSocket, Write.tcp, Loop.finish]
            | done =>
              simp only [Write.webSocket, Write.tcp, Loop.next] at ih ⊢
              rw [ih]
              simp

/-- A frame whose length TCP refuses has no header for WebSocket either. -/
theorem onFrame_agrees (bytes : Bytes) :
    (WebSocket.onBinary sh l beat bytes write.webSocket).1 = (runIo sh l (.frame bytes write)).1 ∧
      (WebSocket.onBinary sh l beat bytes write.webSocket).2.1 =
        (runIo sh l (.frame bytes write)).2 := by
  unfold runIo readTcpFrame
  by_cases hsize : frameHeaderLen ≤ bytes.length ∧ bytes.length ≤ maxMessageSize
  · simp only [if_pos hsize, Loop.onFrame, WebSocket.onBinary]
    cases decodeIncoming sh bytes with
    | error e => exact ⟨rfl, rfl⟩
    | ok r =>
      refine ⟨rfl, ?_⟩
      simp only
      rw [onRecords_agrees]
      simp
  · obtain ⟨error, hdecode, -⟩ := decodeFrameHeader_size hsize
    have herror : ∃ error, decodeIncoming sh bytes = .error error := by
      unfold decodeIncoming
      by_cases hmax : bytes.length > sh.maxMessageBytes.toNat
      · exact ⟨.frameTooLarge bytes.length, by
          simp [hmax, throw, throwThe, MonadExceptOf.throw, bind, Except.bind]⟩
      · exact ⟨error, by simp [hmax, hdecode, bind, Except.bind]⟩
    obtain ⟨error', hincoming⟩ := herror
    simp only [if_neg hsize, WebSocket.onBinary, hincoming]
    exact ⟨trivial, rfl⟩

/-- **The loops agree on every pass.** -/
theorem pass_agrees (enabled : Bool) (input : Input) :
    (runWebSocket enabled sh l beat (.io input)).1 = (runIo sh l input).1 ∧
      TurnsAgree (runIo sh l input).2 (runWebSocket enabled sh l beat (.io input)).2.1 := by
  cases input with
  | command c write =>
    refine ⟨rfl, ?_⟩
    cases c with
    | request id generation messageType flags payload t =>
      exact .of_eq (onRequest_agrees sh l beat write id generation messageType flags payload t)
    | send id generation messageType payload t =>
      exact onSend_agrees sh l write id generation messageType payload t
    | connect t | close t => exact .of_eq rfl
  | hangup => exact ⟨rfl, .of_eq rfl⟩
  | cancel id =>
    simp only [runWebSocket, runIo, Loop.onCancel]
    cases l.cancelAllPending id <;> exact ⟨rfl, .of_eq rfl⟩
  | frame bytes write =>
    obtain ⟨hshared, hturn⟩ := onFrame_agrees sh l beat write bytes
    exact ⟨hshared, .of_eq hturn⟩
  | ended => exact ⟨rfl, .of_eq rfl⟩

end

/-! ## Runs -/

/-- Two sessions that have agreed so far. -/
structure SessionsAgree (io : Session) (ws : WebSocket) : Prop where
  shared : ws.session.shared = io.shared
  loop : ws.session.loop = io.loop
  result : ws.session.result = io.result
  effects : List.Forall₂ Effect.Agrees io.effects ws.session.effects
  taken : ws.session.taken = io.taken

theorem SessionsAgree.step {io : Session} {ws : WebSocket} (h : SessionsAgree io ws)
    (enabled : Bool) (input : Input) :
    SessionsAgree (io.step input) (ws.step enabled (.io input)) := by
  unfold Session.step WebSocket.step
  rw [h.result, h.shared, h.loop]
  cases io.result with
  | some r => exact h
  | none =>
    obtain ⟨hshared, hturn⟩ := pass_agrees io.shared io.loop ws.beat enabled input
    refine ⟨hshared, hturn.loop, hturn.result, ?_, ?_⟩
    · exact List.rel_append h.effects hturn.effects
    · simp only [Session.pass, WebSocket.request?, h.taken]

theorem sessionsAgree_run (enabled : Bool) {io : Session} {ws : WebSocket}
    (h : SessionsAgree io ws) (inputs : List Input) :
    SessionsAgree (run Session.step io inputs)
      (run (WebSocket.step enabled) ws (inputs.map .io)) := by
  induction inputs generalizing io ws with
  | nil => exact h
  | cons input inputs ih => exact ih (h.step enabled input)

/-- **The two session loops agree.** From any state of the supervisor and for any
inputs of the kinds both can take, in the order they come. -/
theorem loops_agree (enabled : Bool) (sh : Shared) (inputs : List Input) :
    (run Session.step (.start sh) inputs).effects.filterMap Effect.frame? =
        (run (WebSocket.step enabled) (.start sh)
          (inputs.map .io)).session.effects.filterMap Effect.frame? ∧
      (run Session.step (.start sh) inputs).effects.filterMap Effect.outcome? =
        (run (WebSocket.step enabled) (.start sh)
          (inputs.map .io)).session.effects.filterMap Effect.outcome? ∧
      (run Session.step (.start sh) inputs).effects.filterMap Effect.published? =
        (run (WebSocket.step enabled) (.start sh)
          (inputs.map .io)).session.effects.filterMap Effect.published? ∧
      List.Forall₂ Effect.Agrees (run Session.step (.start sh) inputs).effects
        (run (WebSocket.step enabled) (.start sh) (inputs.map .io)).session.effects ∧
      (run Session.step (.start sh) inputs).result =
        (run (WebSocket.step enabled) (.start sh) (inputs.map .io)).session.result := by
  have h0 : SessionsAgree (.start sh) (.start sh) := ⟨rfl, rfl, rfl, .nil, rfl⟩
  have h := sessionsAgree_run enabled h0 inputs
  exact ⟨filterMap_agrees (fun _ _ => rfl) h.effects, filterMap_agrees (fun _ _ => rfl) h.effects,
    filterMap_agrees (fun _ _ => rfl) h.effects, h.effects, h.result.symm⟩

end Fitz

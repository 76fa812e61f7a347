import Fitz.Proof.Fencing
import Fitz.Proof.FrameSizes

/-!
# What calls asked for, and what was sent

A response reaches a caller only through the slot its own request left, and the slot
is there only once the frame of that request was taken by the transport.
`askedInv_step` keeps this with the message type and the payload of each call: what
was delivered to a caller was asked for on the transport it came from, with the
caller's own payload, whoever the broker answered.
-/

namespace Fitz

/-- A frame with this message type and payload was taken by the transport. -/
def Carried (taken : List (ℕ × Bytes)) (serial : ℕ) (ask : UInt16 × Bytes) : Prop :=
  ∃ frame flags correlationId, (serial, frame) ∈ taken ∧
    tryEncodeFrame ask.1 flags correlationId ask.2 = .ok frame

theorem Carried.mono {taken : List (ℕ × Bytes)} {serial : ℕ} {ask : UInt16 × Bytes}
    (h : Carried taken serial ask) (new : List (ℕ × Bytes)) : Carried (taken ++ new) serial ask := by
  obtain ⟨frame, flags, correlationId, hmem, henc⟩ := h
  exact ⟨frame, flags, correlationId, List.mem_append_left _ hmem, henc⟩

/-- What was sent can be sent again. -/
theorem Carried.fits {taken : List (ℕ × Bytes)} {serial : ℕ} {ask : UInt16 × Bytes}
    (h : Carried taken serial ask) : frameHeaderLen + ask.2.length ≤ maxMessageSize := by
  obtain ⟨frame, flags, correlationId, -, henc⟩ := h
  exact (tryEncodeFrame_ok henc).2.1

/-- What the write of a step returns, if it writes. -/
def Event.written : Event → Result Unit
  | .restoreNext _ written | .command written | .inbound _ _ written => written
  | _ => .ok ()

namespace Conn

variable {cfg : Config} {s : Conn}

/-- The frames of the step that the transport takes. -/
def takes (s : Conn) (e : Event) : List Bytes :=
  match e.written with
  | .ok () => s.writes e
  | .error _ => []

/-- What the calls ask for, besides what was asked before. -/
def remember (asked : Ticket → Option (UInt16 × Bytes)) (calls : HashMap Ticket Call) :
    Ticket → Option (UInt16 × Bytes) :=
  fun t => (asked t).or ((calls.lookup t).map fun call => (call.messageType, call.payload))

variable {asked : Ticket → Option (UInt16 × Bytes)} {taken : List (ℕ × Bytes)}

theorem remember_of_some {t : Ticket} {ask : UInt16 × Bytes} (h : asked t = some ask)
    (calls : HashMap Ticket Call) : remember asked calls t = some ask := by
  simp [remember, h]

/-- Every call, command, slot and delivery is of a call that asked for something; a
slot or a delivery, of one whose request the transport has taken. -/
structure AskedInv (s : Conn) (asked : Ticket → Option (UInt16 × Bytes))
    (taken : List (ℕ × Bytes)) : Prop where
  fresh : ∀ t ask, asked t = some ask → t < s.nextTicket
  call : ∀ t call, s.calls.lookup t = some call → asked t = some (call.messageType, call.payload)
  command : ∀ id generation messageType flags payload t,
    .request id generation messageType flags payload t ∈ s.commands →
      asked t = some (messageType, payload)
  slot : s.pc = .session → ∀ k slot t, s.loop.correlated.lookup k = some slot →
    slot.response = some t → ∃ ask, asked t = some ask ∧ Carried taken s.serial ask
  delivered : ∀ serial t payload frame source, .delivered serial t payload frame source ∈ s.log →
    ∃ ask, asked t = some ask ∧ Carried taken serial ask

/-! ## Calls -/

/-- A call keeps what it asks for. -/
theorem calls_content {e : Event} {t : Ticket} {call : Call}
    (h : (s.step cfg e).calls.lookup t = some call) :
    (∃ call', s.calls.lookup t = some call' ∧ call'.messageType = call.messageType ∧
      call'.payload = call.payload) ∨ t = s.nextTicket := by
  rcases called_lookup h with hold | ⟨hnew, -⟩ | ⟨old, stage, hold, rfl, -⟩
  · exact .inl ⟨call, hold, rfl, rfl⟩
  · exact .inr hnew
  · exact .inl ⟨old, hold, rfl, rfl⟩

theorem request_eq_commandOf {id generation : UInt64} {messageType : UInt16} {flags : UInt8}
    {payload : Bytes} {t : Ticket} {call : Call} {g : UInt64}
    (h : Command.request id generation messageType flags payload t = commandOf t call g) :
    call.messageType = messageType ∧ call.payload = payload := by
  unfold commandOf at h
  split at h
  · cases h
    exact ⟨rfl, rfl⟩
  · cases h

/-! ## Slots -/

/-- A request that left a slot was taken. -/
theorem onRequest_taken {sh : Shared} {l : Loop} (hcorr : supervisorCorrelationEnabled sh = true)
    {id generation : UInt64} {messageType : UInt16} {flags : UInt8} {payload : Bytes} {t : Ticket}
    {written : Result Unit} {frame : Bytes}
    (hw : (l.onRequest sh id generation messageType flags payload t written).effects.filterMap
      Effect.frame? = [frame])
    (hr : (l.onRequest sh id generation messageType flags payload t written).result = none) :
    written = .ok () := by
  cases written with
  | ok => rfl
  | error error =>
    -- a write that fails ends the loop; in every other branch nothing is written
    by_cases hg : generation ≠ l.sessionGeneration
    · simp only [Loop.onRequest, if_pos hg, Loop.next] at hw
      cases hw
    · simp only [Loop.onRequest, hg, if_false, hcorr, if_true, Loop.requestCorrelated] at hw hr
      by_cases hroom : l.correlated.entries.length ≥ sh.maxInFlight.toNat
      · simp only [hroom, if_true, Loop.next, List.filterMap_append, Loop.frame?_refuse,
          List.append_nil] at hw
        split at hw <;> cases hw
      · simp only [hroom, if_false] at hw hr
        cases henc : encodeOutbound sh messageType flags id payload with
        | error e =>
          simp only [henc, Loop.next, List.filterMap_append, Loop.frame?_refuse,
            List.append_nil] at hw
          split at hw <;> cases hw
        | ok f =>
          simp only [henc, Loop.finish] at hr
          cases hr

/-- The slots after a served command. -/
theorem slot_command (hb : Base s) (h : AskedInv s asked taken) (hpc : s.pc = .session)
    {written : Result Unit} (h' : (s.command cfg written).pc = .session) {k : UInt64}
    {slot : PendingRequest} {t : Ticket}
    (hk : (s.command cfg written).loop.correlated.lookup k = some slot)
    (ht : slot.response = some t) :
    ∃ ask, asked t = some ask ∧
      Carried (taken ++ (s.takes (.command written)).map (s.serial, ·)) s.serial ask := by
  have hold : s.loop.correlated.lookup k = some slot → ∃ ask, asked t = some ask ∧
      Carried (taken ++ (s.takes (.command written)).map (s.serial, ·)) s.serial ask := by
    intro hk
    obtain ⟨ask, hask, hc⟩ := h.slot hpc k slot t hk ht
    exact ⟨ask, hask, hc.mono _⟩
  cases hcs : s.commands with
  | nil =>
    simp only [command, hpc, hcs] at hk
    exact hold hk
  | cons c cs =>
    obtain ⟨-, hcorr, -⟩ := (negotiated_iff hpc).1 hb.negotiated
    obtain ⟨hf, -⟩ := command_frame cfg hpc hcs written
    have hlive := hf.live h'
    rw [hf.loop] at hk
    cases c with
    | request id generation messageType flags payload t0 =>
      have hreq := Loop.onRequest_requested (l := s.loop) hcorr id generation messageType flags
        payload t0 written
      -- the loop goes round only if the transport took the frame
      have htakes : ∀ frame,
          (s.loop.onRequest s.shared id generation messageType flags payload t0
            written).effects.filterMap Effect.frame? = [frame] →
          (s.loop.onRequest s.shared id generation messageType flags payload t0
            written).result = none → s.takes (.command written) = [frame] := by
        intro frame hw hr
        obtain rfl := onRequest_taken hcorr hw hr
        simp only [takes, Event.written, writes, hpc, hcs, Loop.onCommand, hw]
      simp only [Loop.onCommand] at hk hlive
      generalize s.loop.onRequest s.shared id generation messageType flags payload t0 written = turn
        at hreq hk hlive htakes
      rcases hreq.slot hlive hk ht with hk | ⟨rfl, rfl, -, frame, henc, hw, hr⟩
      · exact hold hk
      · refine ⟨(messageType, payload), h.command k generation messageType flags payload t
          (by rw [hcs]; simp), frame, flags, k, ?_, (encodeOutbound_ok henc).1⟩
        rw [htakes frame hw hr]
        simp
    | send id generation messageType payload t0 =>
      obtain ⟨effects, heq, -⟩ := Loop.onSend_sent s.shared s.loop id generation messageType payload
        t0 written
      simp only [Loop.onCommand, heq, Loop.next] at hk
      exact hold hk
    | connect t0 => exact hold hk
    | close t0 => simp [Loop.onCommand, Loop.finish, Loop.failAll] at hk

/-- The slots after a step. -/
theorem slot_step (hb : Base s) (h : AskedInv s asked taken) {e : Event}
    (h' : (s.step cfg e).pc = .session) {k : UInt64} {slot : PendingRequest} {t : Ticket}
    (hk : (s.step cfg e).loop.correlated.lookup k = some slot) (ht : slot.response = some t) :
    ∃ ask, asked t = some ask ∧
      Carried (taken ++ (s.takes e).map (s.serial, ·)) (s.step cfg e).serial ask := by
  rcases session_before s e h' with hpc | ⟨-, -, hloop⟩
  · obtain ⟨hcap, -, hl⟩ := (negotiated_iff hpc).1 hb.negotiated
    -- nothing but a command makes slots, so the others are old ones
    have hold : s.loop.correlated.lookup k = some slot → (s.step cfg e).serial = s.serial →
        ∃ ask, asked t = some ask ∧
          Carried (taken ++ (s.takes e).map (s.serial, ·)) (s.step cfg e).serial ask := by
      intro hk hserial
      obtain ⟨ask, hask, hc⟩ := h.slot hpc k slot t hk ht
      rw [hserial]
      exact ⟨ask, hask, hc.mono _⟩
    cases he : inSession e with
    | false =>
      have hf := session_frame s e hb hpc he h'
      rw [hf.loop] at hk
      exact hold hk hf.serial
    | true =>
      cases e with
      | command written =>
        have hserial : (s.step cfg (.command written)).serial = s.serial := by
          cases hcs : s.commands with
          | nil => simp only [step, command, hpc, hcs]
          | cons c cs => exact (command_frame cfg hpc hcs written).1.serial
        rw [hserial]
        exact slot_command hb h hpc h' hk ht
      | cancel =>
        cases hcan : s.cancellations with
        | nil =>
          have hstay : s.step cfg .cancel = s := by simp only [step, cancel, hpc, hcan]
          rw [hstay] at hk
          exact hold hk (by rw [hstay])
        | cons p rest =>
          obtain ⟨hf, -⟩ := cancel_frame cfg hpc hcan
          rw [show (s.step cfg .cancel).loop = _ from hf.loop] at hk
          exact hold ((Loop.onCancel_canceled hl p.1).slot hk ht) hf.serial
      | inbound frame answers written =>
        obtain ⟨hf, -⟩ := inbound_frame cfg hb.negotiated hpc frame answers written
        rw [show (s.step cfg (.inbound frame answers written)).loop = _ from hf.loop] at hk
        exact hold ((Loop.onFrame_framed hl hcap frame written).2.slot (hf.live h') hk) hf.serial
      | _ => cases he
  · -- a new loop has no slots
    rw [hloop] at hk
    simp [Loop.new] at hk

/-- **What is delivered was asked for, and taken, on the same transport.** -/
theorem askedInv_step (s : Conn) (e : Event) (hb : Base s) (h : AskedInv s asked taken) :
    AskedInv (s.step cfg e) (remember asked (s.step cfg e).calls)
      (taken ++ (s.takes e).map (s.serial, ·)) := by
  have hb' : Base (s.step cfg e) := base_step s e hb
  have hnext : s.nextTicket ≤ (s.step cfg e).nextTicket := (counters_step cfg s e).1
  refine ⟨fun t ask hask => ?_, fun t call hcall => ?_,
    fun id generation messageType flags payload t hmem => ?_, fun h' k slot t hk ht => ?_,
    fun serial t payload frame source hmem => ?_⟩
  · -- a new entry of `asked` is that of a call
    cases hold : asked t with
    | some ask' => exact (h.fresh t ask' hold).trans_le hnext
    | none =>
      simp only [remember, hold, Option.none_or, Option.map_eq_some_iff] at hask
      obtain ⟨call, hcall, -⟩ := hask
      obtain ⟨epoch, hissued⟩ := hb'.tickets.call t call hcall
      exact (hb'.ids.bound t _ _ hissued).1
  · cases hold : asked t with
    | none => simp [remember, hold, hcall]
    | some ask =>
      rw [remember_of_some hold]
      rcases calls_content hcall with ⟨call', hcall', htype, hpayload⟩ | rfl
      · rw [← hold, h.call t call' hcall', htype, hpayload]
      · exact absurd (h.fresh _ ask hold) (Nat.lt_irrefl _)
  · rcases commands_step hmem rfl with hmem | ⟨call, g, hcall, -, hc⟩
    · exact remember_of_some (h.command id generation messageType flags payload t hmem) _
    · obtain ⟨htype, hpayload⟩ := request_eq_commandOf hc
      rw [← htype, ← hpayload]
      exact remember_of_some (h.call t call hcall) _
  · obtain ⟨ask, hask, hc⟩ := slot_step hb h h' hk ht
    exact ⟨ask, remember_of_some hask _, hc⟩
  · obtain ⟨new, hnew, hex⟩ := log_step cfg s e hb.negotiated
    rw [hnew] at hmem
    rcases List.mem_append.1 hmem with hmem | hmem
    · obtain ⟨ask, hask, hc⟩ := h.delivered serial t payload frame source hmem
      exact ⟨ask, remember_of_some hask _, hc.mono _⟩
    · -- a delivery of this step went through a slot
      obtain ⟨answers, written, rfl, hpc, rfl, -, heff⟩ := hex _ hmem
      obtain ⟨hcap, -, hl⟩ := (negotiated_iff hpc).1 hb.negotiated
      obtain ⟨header, slot, -, -, -, -, -, hk, ht⟩ :=
        (Loop.onFrame_framed hl hcap _ written).2.responded heff
      obtain ⟨ask, hask, hc⟩ := h.slot hpc header.correlationId slot t hk ht
      exact ⟨ask, remember_of_some hask _, hc.mono _⟩

theorem askedInv_new (cfg : Config) : AskedInv (.new cfg) (fun _ => none) [] where
  fresh := (by simp)
  call := (by simp [Conn.new])
  command := (by simp [Conn.new])
  slot := (by simp [Conn.new, Loop.new])
  delivered := (by simp [Conn.new])

end Conn

end Fitz

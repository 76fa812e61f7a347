import Fitz.Model.Responding
import Fitz.Proof.Asked
import Fitz.Proof.Notifications

/-!
# The life of a send

`Sending t sent` holds of a call of `AsyncConnection::send` in every run: its command is
in the channel once at most, no slot of the session loop is its, and it is told of a
success only after the transport took its frame. `sending_step` keeps it.
-/

namespace Fitz

open Machine

/-- The `oneshot` of a command. -/
def Command.response : Command → Ticket
  | .connect t | .request _ _ _ _ _ t | .send _ _ _ _ t | .close t => t

namespace Conn

variable {cfg : Config} {s : Conn} {t : Ticket} {sent : Bool} {e : Event}

/-- What holds of the send `t`, whose frame the transport has taken if `sent`. -/
structure Sending (t : Ticket) (sent : Bool) (s : Conn) : Prop where
  fresh : t < s.nextTicket
  call : ∀ call, s.calls.lookup t = some call → call.kind = .send
  command : ∀ c ∈ s.commands, c.response = t →
    ∃ id generation messageType payload, c = .send id generation messageType payload t
  once : sent = true → (∀ c ∈ s.commands, c.response ≠ t) ∧
    ∀ call, s.calls.lookup t = some call → call.stage = .waiting
  slot : s.pc = .session → ∀ k slot, s.loop.correlated.lookup k = some slot →
    slot.response ≠ some t
  answered : ∀ payload, (t, some (.ok payload)) ∈ s.answers → sent = true

/-! ## Commands -/

/-- A new command is of a call that was stamped, or has a new ticket. -/
theorem pushed_step {c : Command} (h : c ∈ (s.step cfg e).commands) :
    c ∈ s.commands ∨ (c.response = s.nextTicket ∧ s.nextTicket < (s.step cfg e).nextTicket) ∨
      ∃ call g, s.calls.lookup c.response = some call ∧ call.stage = .stamped g ∧
        c = commandOf c.response call g := by
  cases hc : c.ticket? with
  | some t =>
    have hresponse : c.response = t := by
      cases c <;> cases hc <;> rfl
    rcases commands_step h hc with hold | ⟨call, g, hcall, hst, heq⟩
    · exact .inl hold
    · rw [hresponse]
      exact .inr (.inr ⟨call, g, hcall, hst, heq⟩)
  | none =>
    -- `connect` and `close` take a ticket of their own
    cases e with
    | connect | close =>
      simp only [step, push] at h
      repeat' split at h
      all_goals first
        | exact .inl h
        | rcases List.mem_append.1 h with h | h
          · exact .inl h
          · rw [List.mem_singleton.1 h]
            refine .inr (.inl ⟨rfl, ?_⟩)
            simp only [step, push]
            simp [*]
    | enqueue t =>
      simp only [step, enqueue] at h
      repeat' split at h
      all_goals first
        | exact .inl h
        | rcases List.mem_append.1 h with h | h
          · exact .inl h
          · rw [List.mem_singleton.1 h] at hc
            unfold commandOf at hc
            split at hc <;> cases hc
    | receive => exact .inl (mem_commands_receive h)
    | command written =>
      simp only [step, command, turn_eq] at h
      split at h
      · rename_i hcs
        have hmem : ∀ x ∈ _, x ∈ s.commands := fun x hx => hcs ▸ List.mem_cons_of_mem _ hx
        split at h <;> exact .inl (hmem c h)
      · exact .inl h
    | advance =>
      have ha := advance_advanced cfg s
      simp only [step] at h
      generalize s.advance cfg = s' at ha h
      cases ha <;> exact .inl h
    | allocate kind messageType payload =>
      simp only [step, allocate] at h
      split at h <;> exact .inl h
    | stamp t | resume t | abandon t | requestClose | dial result | auth answer | restoreFail
    | restored | restoreNext cell written | restoreRead frame answers | cancel
    | inbound frame answers written | readError | hangup =>
      simp only [step, stamp, resume, abandon, dropGuard, requestClose, dial, auth, restoreFail,
        restored, restoreNext, restoreRead, cancel, inbound, readError, hangup, turn_eq] at h
      repeat' split at h
      all_goals exact .inl h
    | register | deactivate | token | wake => exact .inl h

/-- The call of a command in the channel waits. -/
theorem waiting_of_command (hb : Base s) {c : Command} (hc : c ∈ s.commands)
    (ht : c.ticket? = some t) {call : Call} (hcall : s.calls.lookup t = some call) :
    call.stage = .waiting := by
  by_contra hne
  have hearly := hb.tickets.early t call hcall hne
  exact hearly (List.mem_append_left _ (List.mem_filterMap.2 ⟨c, hc, ht⟩))

/-- A waiting call keeps waiting. -/
theorem waiting_step (hfresh : t < s.nextTicket)
    (h : ∀ call, s.calls.lookup t = some call → call.stage = .waiting) {call : Call}
    (hcall : (s.step cfg e).calls.lookup t = some call) : call.stage = .waiting := by
  rcases called_lookup hcall with hold | ⟨rfl, -⟩ | ⟨old, stage, hold, rfl, hstage⟩
  · exact h call hold
  · exact absurd hfresh (Nat.lt_irrefl _)
  · rcases hstage with rfl | ⟨rfl, -⟩
    · rfl
    · -- a stamp is for a call that was just allocated
      have hwait := h old hold
      simp only [step, stamp, hold, hwait] at hcall
      have heq := Option.some.inj hcall
      rw [← heq]
      exact hwait

/-! ## Transmission -/

theorem transmitted_some (h : s.transmitted e = some t) :
    e = .command (.ok ()) ∧ s.pc = .session ∧
      ∃ id generation messageType payload cs,
        s.commands = .send id generation messageType payload t :: cs := by
  unfold transmitted at h
  split at h
  · split at h
    · rename_i hpc hcs
      split at h
      · cases h
        exact ⟨rfl, hpc, _, _, _, _, _, hcs⟩
      · cases h
    · cases h
  · cases h

/-- Once transmitted, the command is gone and the call waits. -/
theorem sent_step (cfg : Config) (hb : Base s) (h : s.transmitted e = some t) :
    (∀ c ∈ (s.step cfg e).commands, c.response = t → ∃ t', c = .connect t' ∨ c = .close t') ∧
      ∀ call, (s.step cfg e).calls.lookup t = some call → call.stage = .waiting := by
  obtain ⟨rfl, hpc, id, generation, messageType, payload, cs, hcs⟩ := transmitted_some h
  have hcommands : (s.step cfg (.command (.ok ()))).commands = cs := by
    simp only [step, command, hpc, hcs, turn_eq]
  have hcalls : (s.step cfg (.command (.ok ()))).calls = s.calls := calls_step rfl
  constructor
  · intro c hc hresponse
    rw [hcommands] at hc
    -- the ticket of the head is not in the tail
    have hnodup := hb.tickets.nodup
    simp only [flight, hcs, List.filterMap_cons, Command.ticket?, List.cons_append,
      List.nodup_cons] at hnodup
    cases hticket : c.ticket? with
    | some t' =>
      have htt : t' = t := by
        cases c <;> cases hticket <;> exact hresponse
      subst htt
      exact absurd (List.mem_append_left _ (List.mem_filterMap.2 ⟨c, hc, hticket⟩)) hnodup.1
    | none =>
      cases c with
      | connect t' => exact ⟨t', .inl rfl⟩
      | close t' => exact ⟨t', .inr rfl⟩
      | request | send => cases hticket
  · intro call hcall
    rw [hcalls] at hcall
    exact waiting_of_command hb (c := .send id generation messageType payload t)
      (by rw [hcs]; simp) rfl hcall

/-! ## Answers -/

/-- A request is not acknowledged. -/
theorem acknowledge_onRequest {sh : Shared} {l : Loop} {id generation : UInt64}
    {messageType : UInt16} {flags : UInt8} {payload : Bytes} {t' : Ticket} {written : Result Unit}
    {r : Result Unit} :
    Effect.acknowledge t r ∉
      (l.onRequest sh id generation messageType flags payload t' written).effects := by
  unfold Loop.onRequest
  split
  · simp [Loop.next]
  · simp only [List.mem_append, not_or]
    constructor
    · split <;> simp
    · simp only [Loop.requestCorrelated, Loop.requestPending]
      repeat' split
      all_goals simp [Loop.next, Loop.finish, Loop.refuse, Loop.releaseOpt, Loop.failAll]
      all_goals
        repeat' split
        all_goals simp

theorem acknowledge_promote {l : Loop} {messageType : UInt16} {effects : List Effect}
    {written r : Result Unit} (h : Effect.acknowledge t r ∉ effects) :
    Effect.acknowledge t r ∉ (l.promote messageType effects written).effects := by
  unfold Loop.promote
  repeat' split
  all_goals simp [Loop.next, Loop.finish, Loop.failAll, h]

/-- No frame acknowledges a command. -/
theorem acknowledge_onRecord {l : Loop} {record : IncomingRecord} {written r : Result Unit} :
    Effect.acknowledge t r ∉ (l.onRecord record written).effects := by
  unfold Loop.onRecord
  split
  · cases hd : l.dispatchCorrelated record.correlationId record.payload record.responseFinal with
    | error error => simp [Loop.finish, Loop.failAll]
    | ok p =>
      unfold Loop.dispatchCorrelated at hd
      split at hd
      · cases hd
      · rename_i slot hslot
        split at hd
        · cases hd
          cases slot.response <;> simp [Loop.next]
        · cases hd
          simp [Loop.next]
  · have hdispatch : Effect.acknowledge t r ∉ (l.dispatch record.messageType record.payload).2.1 := by
      unfold Loop.dispatch
      split
      · rename_i slot slots hslots
        cases slot.response <;> simp
      · simp
    generalize l.dispatch record.messageType record.payload = dispatched at hdispatch ⊢
    obtain ⟨l', effects, completed⟩ := dispatched
    cases completed with
    | true => exact acknowledge_promote hdispatch
    | false => exact hdispatch

theorem acknowledge_onFrame {sh : Shared} {l : Loop} {frame : Bytes} {written : Result Unit}
    {r : Result Unit} : Effect.acknowledge t r ∉ (l.onFrame sh frame written).2.effects := by
  have hrecords : ∀ (records : List IncomingRecord) (l : Loop),
      Effect.acknowledge t r ∉ (l.onRecords written records).effects := by
    intro records
    induction records with
    | nil => simp [Loop.onRecords, Loop.next]
    | cons record records ih =>
      intro l
      simp only [Loop.onRecords]
      split
      · exact acknowledge_onRecord
      · simp only [List.mem_append, not_or]
        exact ⟨acknowledge_onRecord, ih _⟩
  unfold Loop.onFrame
  split
  · simp [Loop.finish, Loop.failAll]
  · exact hrecords _ _

/-- A success is that of an acknowledged command, or a payload from a slot. -/
theorem answered_step (hb : Base s) {payload : Bytes}
    (h : (t, some (.ok payload)) ∈ (s.step cfg e).answers) :
    (t, some (.ok payload)) ∈ s.answers ∨ s.transmitted e = some t ∨
      (∃ c ∈ s.commands, c = .connect t ∨ c = .close t) ∨
      (s.pc = .session ∧ ∃ k slot, s.loop.correlated.lookup k = some slot ∧
        slot.response = some t) := by
  -- effects that neither acknowledge nor hand over a payload
  have hsilent : ∀ effects : List Effect, effects.filterMap Effect.payload? = [] →
      (∀ t r, Effect.acknowledge t r ∉ effects) →
      (t, some (.ok payload)) ∈ s.answers ++ effects.filterMap answer? →
      (t, some (.ok payload)) ∈ s.answers := by
    intro effects hpay hack hmem
    rcases List.mem_append.1 hmem with hmem | hmem
    · exact hmem
    · obtain ⟨x, hx, ha⟩ := List.mem_filterMap.1 hmem
      cases x with
      | respond t' r =>
        cases ha
        have hp : (t, payload) ∈ effects.filterMap Effect.payload? :=
          List.mem_filterMap.2 ⟨_, hx, rfl⟩
        rw [hpay] at hp
        cases hp
      | acknowledge t' r => exact absurd hx (hack t' r)
      | release | write | publish => simp [answer?] at ha
  cases e with
  | command written =>
    simp only [step, command, turn_eq] at h
    split at h
    · rename_i c cs hpc hcs
      cases c with
      | request id generation messageType flags payload' t' =>
        exact .inl (hsilent _ (Loop.payload?_onCommand _ written)
          (fun _ _ => acknowledge_onRequest) h)
      | send id generation messageType payload' t' =>
        rcases List.mem_append.1 h with h | h
        · exact .inl h
        · refine .inr (.inl ?_)
          simp only [Loop.onCommand, Loop.onSend] at h
          split at h
          · simp [Loop.next, answer?, Except.map] at h
          · rename_i hgen
            split at h
            · simp [Loop.next, answer?, Except.map] at h
            · rename_i frame henc
              cases written with
              | ok u =>
                simp only [Loop.next, List.filterMap_cons, List.filterMap_nil, answer?, Except.map,
                  List.mem_singleton, Prod.mk.injEq] at h
                obtain ⟨rfl, -⟩ := h
                simp only [transmitted, hpc, hcs, Loop.onSend, hgen, henc, Loop.next, if_false]
              | error error => simp [Loop.next, answer?, Except.map] at h
      | connect t' | close t' =>
        simp only [supStep] at h
        rcases List.mem_append.1 h with h | h
        · exact .inl h
        · refine .inr (.inr (.inl ⟨_, by rw [hcs]; exact List.mem_cons_self, ?_⟩))
          simp [Loop.onCommand, Loop.next, Loop.finish, Loop.failAll, answer?, Except.map] at h
          simp [h.1]
    · exact .inl h
  | cancel =>
    simp only [step, cancel, turn_eq] at h
    split at h
    · rename_i id cause rest hpc hcan
      obtain ⟨-, -, hl⟩ := (negotiated_iff hpc).1 hb.negotiated
      refine .inl (hsilent _ (Loop.payload?_onCancel _) (fun t r => ?_) h)
      have hcanceled := Loop.onCancel_canceled hl id
      generalize s.loop.onCancel id = turn at hcanceled
      cases hcanceled with
      | @outstanding slot _ => cases hr : slot.response <;> simp [Loop.next, Loop.releaseOpt]
      | early => simp [Loop.next]
    · exact .inl h
  | inbound frame answers written =>
    simp only [step, inbound, turn_eq] at h
    split at h
    · rename_i hpc
      obtain ⟨hcap, -, hl⟩ := (negotiated_iff hpc).1 hb.negotiated
      rcases List.mem_append.1 h with h | h
      · exact .inl h
      · have hframed := (Loop.onFrame_framed hl hcap frame written).2
        obtain ⟨x, hx, ha⟩ := List.mem_filterMap.1 h
        cases x with
        | respond t' r =>
          cases ha
          obtain ⟨header, slot, -, -, -, -, -, hk, ht⟩ := hframed.responded hx
          exact .inr (.inr (.inr ⟨hpc, header.correlationId, slot, hk, ht⟩))
        | acknowledge t' r => exact absurd hx acknowledge_onFrame
        | release | write | publish => simp [answer?] at ha
    · exact .inl h
  | readError | hangup =>
    simp only [step, readError, hangup, turn_eq] at h
    split at h
    · refine .inl (hsilent (s.loop.onHangup).effects ?_ (fun t r => ?_) h)
      · simp only [Loop.onHangup, Loop.finish, List.nil_append, Loop.payload?_failAll]
      · simp [Loop.onHangup, Loop.finish, Loop.failAll]
    all_goals exact .inl h
  | receive =>
    simp only [step, receive] at h
    split at h
    · split at h
      · exact .inl h
      all_goals
        rcases List.mem_append.1 h with h | h
        · exact .inl h
        · simp at h
    · exact .inl h
  | advance =>
    have ha := advance_advanced cfg s
    simp only [step] at h
    generalize s.advance cfg = s' at ha h
    cases ha <;> exact .inl h
  | allocate kind messageType payload =>
    simp only [step, allocate] at h
    split at h <;> exact .inl h
  | stamp t | enqueue t | resume t | abandon t | connect | close | requestClose | dial result
  | auth answer | restoreNext cell written | restoreRead frame answers | restoreFail | restored =>
    simp only [step, stamp, enqueue, resume, abandon, dropGuard, push, requestClose, dial, auth,
      restoreNext, restoreRead, restoreFail, restored] at h
    repeat' split at h
    all_goals exact .inl h
  | register | deactivate | token | wake => exact .inl h

/-! ## Slots -/

/-- A slot is an old one, or of a request that the channel held. -/
theorem slot_origin (hb : Base s) (h' : (s.step cfg e).pc = .session) {k : UInt64}
    {slot : PendingRequest} (hk : (s.step cfg e).loop.correlated.lookup k = some slot)
    (ht : slot.response = some t) :
    (s.pc = .session ∧ s.loop.correlated.lookup k = some slot) ∨
      ∃ id generation messageType flags payload,
        .request id generation messageType flags payload t ∈ s.commands := by
  rcases session_before s e h' with hpc | ⟨-, -, hloop⟩
  · obtain ⟨hcap, hcorr, hl⟩ := (negotiated_iff hpc).1 hb.negotiated
    cases he : inSession e with
    | false =>
      rw [(session_frame s e hb hpc he h').loop] at hk
      exact .inl ⟨hpc, hk⟩
    | true =>
      cases e with
      | command written =>
        cases hcs : s.commands with
        | nil =>
          simp only [step, command, hpc, hcs] at hk
          exact .inl ⟨hpc, hk⟩
        | cons c cs =>
          obtain ⟨hf, -⟩ := command_frame cfg hpc hcs written
          have hlive := hf.live h'
          rw [show (s.step cfg (.command written)).loop = _ from hf.loop] at hk
          cases c with
          | request id generation messageType flags payload t' =>
            have hreq := Loop.onRequest_requested (l := s.loop) hcorr id generation messageType
              flags payload t' written
            simp only [Loop.onCommand] at hk hlive
            generalize s.loop.onRequest s.shared id generation messageType flags payload t' written
              = turn at hreq hk hlive
            rcases hreq.slot hlive hk ht with hk | ⟨-, rfl, -⟩
            · exact .inl ⟨hpc, hk⟩
            · exact .inr ⟨id, generation, messageType, flags, payload, List.mem_cons_self⟩
          | send id generation messageType payload t' =>
            obtain ⟨effects, heq, -⟩ := Loop.onSend_sent s.shared s.loop id generation messageType
              payload t' written
            simp only [Loop.onCommand, heq, Loop.next] at hk
            exact .inl ⟨hpc, hk⟩
          | connect t' => exact .inl ⟨hpc, hk⟩
          | close t' => simp [Loop.onCommand, Loop.finish, Loop.failAll] at hk
      | cancel =>
        cases hcan : s.cancellations with
        | nil =>
          simp only [step, cancel, hpc, hcan] at hk
          exact .inl ⟨hpc, hk⟩
        | cons p rest =>
          obtain ⟨hf, -⟩ := cancel_frame cfg hpc hcan
          rw [show (s.step cfg .cancel).loop = _ from hf.loop] at hk
          exact .inl ⟨hpc, (Loop.onCancel_canceled hl p.1).slot hk ht⟩
      | inbound frame answers written =>
        obtain ⟨hf, -⟩ := inbound_frame cfg hb.negotiated hpc frame answers written
        rw [show (s.step cfg (.inbound frame answers written)).loop = _ from hf.loop] at hk
        exact .inl ⟨hpc, (Loop.onFrame_framed hl hcap frame written).2.slot (hf.live h') hk⟩
      | _ => cases he
  · -- a new loop has no slots
    rw [hloop] at hk
    simp [Loop.new] at hk

/-! ## Tickets are new -/

/-- What the connection knows of is older than the next call. -/
structure Numbered (s : Conn) : Prop where
  base : Base s
  calls : ∀ t call, s.calls.lookup t = some call → t < s.nextTicket
  commands : ∀ c ∈ s.commands, c.response < s.nextTicket
  slots : s.pc = .session → ∀ k slot t, s.loop.correlated.lookup k = some slot →
    slot.response = some t → t < s.nextTicket
  answers : ∀ t payload, (t, some (.ok payload)) ∈ s.answers → t < s.nextTicket

theorem numbered_new (cfg : Config) : Numbered (.new cfg) where
  base := base_new cfg
  calls := by simp [Conn.new]
  commands := by simp [Conn.new]
  slots := by simp [Conn.new, Loop.new]
  answers := by simp [Conn.new]

theorem numbered_step (cfg : Config) (s : Conn) (e : Event) (h : Numbered s) :
    Numbered (s.step cfg e) := by
  have hnext : s.nextTicket ≤ (s.step cfg e).nextTicket := (counters_step cfg s e).1
  have hb' : Base (s.step cfg e) := base_step s e h.base
  have hcalls : ∀ t call, (s.step cfg e).calls.lookup t = some call →
      t < (s.step cfg e).nextTicket := by
    intro t call hcall
    obtain ⟨epoch, hissued⟩ := hb'.tickets.call t call hcall
    exact (hb'.ids.bound t _ _ hissued).1
  have hcommands : ∀ c ∈ (s.step cfg e).commands, c.response < (s.step cfg e).nextTicket := by
    intro c hc
    rcases pushed_step hc with hold | hnew | ⟨call, g, hcall, -⟩
    · exact (h.commands c hold).trans_le hnext
    · rw [hnew.1]
      exact hnew.2
    · exact (h.calls _ call hcall).trans_le hnext
  refine ⟨hb', hcalls, hcommands, fun h' k slot t hk ht => ?_, fun t payload hmem => ?_⟩
  · rcases slot_origin h.base h' hk ht with ⟨hpc, hold⟩ | ⟨id, g, mt, flags, payload, hmem⟩
    · exact (h.slots hpc k slot t hold ht).trans_le hnext
    · exact (h.commands _ hmem).trans_le hnext
  · rcases answered_step h.base hmem with hold | hsent | ⟨c, hc, rfl | rfl⟩ | ⟨hpc, k, slot, hk, ht⟩
    · exact (h.answers t payload hold).trans_le hnext
    · obtain ⟨-, -, id, g, mt, payload, cs, hcs⟩ := transmitted_some hsent
      have hlt := h.commands (.send id g mt payload t) (by rw [hcs]; simp)
      exact hlt.trans_le hnext
    · exact (h.commands _ hc).trans_le hnext
    · exact (h.commands _ hc).trans_le hnext
    · exact (h.slots hpc k slot t hk ht).trans_le hnext

theorem numbered_run (cfg : Config) (es : List Event) :
    Numbered (run (Conn.step cfg) (.new cfg) es) :=
  run_inv (numbered_step cfg) (numbered_new cfg) es

/-! ## The invariant -/

/-- A send that is allocated. -/
theorem sending_allocate (h : Numbered s) (messageType : UInt16) (payload : Bytes) :
    Sending s.nextTicket false (s.step cfg (.allocate .send messageType payload)) := by
  have hcommands : ∀ c ∈ s.commands, c.response ≠ s.nextTicket := fun c hc heq =>
    absurd (heq ▸ h.commands c hc) (Nat.lt_irrefl _)
  have hslots : s.pc = .session → ∀ k slot, s.loop.correlated.lookup k = some slot →
      slot.response ≠ some s.nextTicket := fun hpc k slot hk ht =>
    absurd (h.slots hpc k slot _ hk ht) (Nat.lt_irrefl _)
  have hanswers : ∀ payload, (s.nextTicket, some (.ok payload)) ∈ s.answers → false = true :=
    fun payload hmem => absurd (h.answers _ payload hmem) (Nat.lt_irrefl _)
  have hcall : ∀ call, s.calls.lookup s.nextTicket ≠ some call := fun call hcall =>
    absurd (h.calls _ call hcall) (Nat.lt_irrefl _)
  simp only [step, allocate]
  split
  · exact ⟨Nat.lt_succ_self _, fun call hc => absurd hc (hcall call),
      fun c hc hr => absurd hr (hcommands c hc), by simp, hslots, hanswers⟩
  · refine ⟨Nat.lt_succ_self _, fun call hc => ?_, fun c hc hr => absurd hr (hcommands c hc), by simp,
      hslots, hanswers⟩
    rw [AList.lookup_insert] at hc
    cases hc
    rfl

/-- **What holds of a send is kept by every step**, with what the step transmits. -/
theorem sending_step (cfg : Config) (hb : Base s) (h : Sending t sent s) (e : Event) :
    Sending t (sent || decide (s.transmitted e = some t)) (s.step cfg e) := by
  have hfresh : t < (s.step cfg e).nextTicket := h.fresh.trans_le (counters_step cfg s e).1
  have hcommand : ∀ c ∈ (s.step cfg e).commands, c.response = t →
      ∃ id generation messageType payload, c = .send id generation messageType payload t := by
    intro c hc hresponse
    rcases pushed_step hc with hold | hnew | ⟨call, g, hcall, -, heq⟩
    · exact h.command c hold hresponse
    · rw [hresponse] at hnew
      exact absurd (hnew.1 ▸ h.fresh) (Nat.lt_irrefl _)
    · rw [hresponse] at hcall heq
      have hkind := h.call call hcall
      rw [heq]
      simp only [commandOf, hkind]
      exact ⟨_, _, _, _, rfl⟩
  refine ⟨hfresh, fun call hcall => ?_, hcommand, fun hsent => ?_, fun h' k slot hk hslot => ?_,
    fun payload hmem => ?_⟩
  · rcases called_lookup hcall with hold | ⟨rfl, -⟩ | ⟨old, stage, hold, rfl, -⟩
    · exact h.call call hold
    · exact absurd h.fresh (Nat.lt_irrefl _)
    · exact h.call old hold
  · cases hs : sent with
    | true =>
      obtain ⟨hnone, hwait⟩ := h.once hs
      refine ⟨fun c hc hresponse => ?_, fun call hcall => waiting_step h.fresh hwait hcall⟩
      rcases pushed_step hc with hold | hnew | ⟨call, g, hcall, hst, -⟩
      · exact hnone c hold hresponse
      · rw [hresponse] at hnew
        exact absurd (hnew.1 ▸ h.fresh) (Nat.lt_irrefl _)
      · rw [hresponse] at hcall
        rw [hwait call hcall] at hst
        cases hst
    | false =>
      have hnow : s.transmitted e = some t := by simpa [hs] using hsent
      obtain ⟨hgone, hwait⟩ := sent_step cfg hb hnow
      refine ⟨fun c hc hresponse => ?_, hwait⟩
      obtain ⟨id, g, mt, payload, rfl⟩ := hcommand c hc hresponse
      obtain ⟨t', hc' | hc'⟩ := hgone _ hc hresponse <;> cases hc'
  · rcases slot_origin hb h' hk hslot with ⟨hpc, hold⟩ | ⟨id, g, mt, flags, payload, hmem⟩
    · exact h.slot hpc k slot hold hslot
    · obtain ⟨_, _, _, _, hc⟩ := h.command _ hmem rfl
      cases hc
  · rcases answered_step hb hmem with hold | hsent | ⟨c, hc, hkind⟩ | ⟨hpc, k, slot, hk, ht⟩
    · simp [h.answered payload hold]
    · simp [hsent]
    · rcases hkind with rfl | rfl <;>
        · obtain ⟨_, _, _, _, heq⟩ := h.command _ hc rfl
          cases heq
    · exact absurd ht (h.slot hpc k slot hk)

end Conn

end Fitz

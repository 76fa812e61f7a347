import Fitz.Proof.Negotiation

/-!
# Identifiers and tickets

Within one epoch, from one reset of `next_request_id` to the next, no id is
allocated twice; and a call's command is in the channel at most once, its frame
on the wire at most once. Both hold in every reachable state (`base_run`), with
the invariant of the handshake.
-/

namespace Fitz

open Machine

/-! ## Identifiers -/

/-- An id is allocated once an epoch, in the order of the sequence. -/
structure IdInv (issued : Ticket → Option (UInt64 × ℕ)) (next : Ticket) (epoch : ℕ)
    (sequence : UInt64) : Prop where
  bound : ∀ t id e, issued t = some (id, e) → t < next ∧ e ≤ epoch
  fresh : ∀ t id, issued t = some (id, epoch) → id ≠ 0 ∧ (sequence = 0 ∨ id < sequence)
  inj : ∀ t t' p, issued t = some p → issued t' = some p → t = t'

variable {issued : Ticket → Option (UInt64 × ℕ)} {next : Ticket} {epoch : ℕ} {sequence : UInt64}

theorem IdInv.issued_next (h : IdInv issued next epoch sequence) : issued next = none := by
  cases hi : issued next with
  | none => rfl
  | some p => exact absurd (h.bound next p.1 p.2 hi).1 (Nat.lt_irrefl _)

theorem IdInv.tick (h : IdInv issued next epoch sequence) :
    IdInv issued (next + 1) epoch sequence :=
  ⟨fun t id e ht => ⟨Nat.lt_succ_of_lt (h.bound t id e ht).1, (h.bound t id e ht).2⟩, h.fresh, h.inj⟩

/-- The sequence restarts at 1 in a new epoch. -/
theorem IdInv.restart (h : IdInv issued next epoch sequence) : IdInv issued next (epoch + 1) 1 := by
  refine ⟨fun t id e ht => ?_, fun t id ht => ?_, h.inj⟩
  · exact ⟨(h.bound t id e ht).1, Nat.le_succ_of_le (h.bound t id e ht).2⟩
  · exact absurd (h.bound t id (epoch + 1) ht).2 (Nat.not_succ_le_self epoch)

theorem allocateRequestId_ok {id : UInt64} (h : (allocateRequestId sequence).1 = .ok id) :
    sequence ≠ 0 ∧ id = sequence ∧
      ((allocateRequestId sequence).2 = 0 ∨ sequence < (allocateRequestId sequence).2) := by
  unfold allocateRequestId at h ⊢
  split at h
  · cases h
  · rename_i h0
    cases h
    refine ⟨h0, rfl, ?_⟩
    simp only [h0, ↓reduceIte]
    split
    · exact .inl rfl
    · rename_i hmax
      refine .inr ?_
      have hlt := sequence.toNat_lt
      have hne : sequence.toNat ≠ 2 ^ 64 - 1 := fun heq => hmax (UInt64.toNat_inj.1 heq)
      rw [UInt64.lt_iff_toNat_lt, UInt64.toNat_add]
      have h1 : (1 : UInt64).toNat = 1 := rfl
      omega

/-- A call takes the next id of the sequence. -/
theorem IdInv.allocate (h : IdInv issued next epoch sequence) {id : UInt64}
    (hok : (allocateRequestId sequence).1 = .ok id) :
    IdInv (Function.update issued next (some (id, epoch))) (next + 1) epoch
      (allocateRequestId sequence).2 := by
  obtain ⟨h0, rfl, hseq⟩ := allocateRequestId_ok hok
  -- every other id of the epoch lies below the sequence
  have hlt : ∀ t, issued t ≠ some (id, epoch) := by
    intro t ht
    rcases (h.fresh t id ht).2 with hz | hz
    · exact h0 hz
    · exact absurd hz (UInt64.lt_irrefl _)
  refine ⟨fun t id' e ht => ?_, fun t id' ht => ?_, fun t t' p ht ht' => ?_⟩
  · by_cases hn : t = next
    · subst hn
      rw [Function.update_self] at ht
      cases ht
      exact ⟨Nat.lt_succ_self _, le_rfl⟩
    · rw [Function.update_of_ne hn] at ht
      exact ⟨Nat.lt_succ_of_lt (h.bound t id' e ht).1, (h.bound t id' e ht).2⟩
  · by_cases hn : t = next
    · subst hn
      rw [Function.update_self] at ht
      cases ht
      exact ⟨h0, hseq⟩
    · rw [Function.update_of_ne hn] at ht
      obtain ⟨hz, hz' | hz'⟩ := h.fresh t id' ht
      · exact absurd hz' h0
      · exact ⟨hz, hseq.imp_right fun hs => UInt64.lt_trans hz' hs⟩
  · by_cases hn : t = next <;> by_cases hn' : t' = next
    · rw [hn, hn']
    · subst hn
      rw [Function.update_self] at ht
      rw [Function.update_of_ne hn', ← ht] at ht'
      exact absurd ht' (hlt t')
    · subst hn'
      rw [Function.update_self] at ht'
      rw [Function.update_of_ne hn, ← ht'] at ht
      exact absurd ht (hlt t)
    · rw [Function.update_of_ne hn] at ht
      rw [Function.update_of_ne hn'] at ht'
      exact h.inj t t' p ht ht'

/-! ## Tickets -/

/-- The command carries the id its call allocated. -/
def Command.Issued (issued : Ticket → Option (UInt64 × ℕ)) : Command → Prop
  | .request id _ _ _ _ t | .send id _ _ _ t => ∃ e, issued t = some (id, e)
  | _ => True

/-- The calls whose command is in the channel or whose frame is unanswered. -/
def flight (commands : List Command) (unanswered : List Sent) : List Ticket :=
  commands.filterMap Command.ticket? ++ unanswered.filterMap (·.origin.ticket?)

structure TicketInv (calls : HashMap Ticket Call) (commands : List Command)
    (cancellations : List (UInt64 × Ticket)) (issued : Ticket → Option (UInt64 × ℕ))
    (unanswered : List Sent) : Prop where
  call : ∀ t c, calls.lookup t = some c → ∃ e, issued t = some (c.id, e)
  command : ∀ c ∈ commands, c.Issued issued
  cancel : ∀ p ∈ cancellations, ∃ e, issued p.2 = some (p.1, e)
  flown : ∀ t ∈ flight commands unanswered, (issued t).isSome = true
  nodup : (flight commands unanswered).Nodup
  early : ∀ t c, calls.lookup t = some c → c.stage ≠ .waiting → t ∉ flight commands unanswered

variable {calls calls' : HashMap Ticket Call} {commands commands' : List Command}
  {cancellations cancellations' : List (UInt64 × Ticket)} {unanswered unanswered' : List Sent}

theorem flight_sublist (hc : commands'.Sublist commands) (hu : unanswered'.Sublist unanswered) :
    (flight commands' unanswered').Sublist (flight commands unanswered) :=
  (hc.filterMap _).append (hu.filterMap _)

/-- Calls may end, commands leave the channel, frames be answered. -/
theorem TicketInv.sub (h : TicketInv calls commands cancellations issued unanswered)
    (hcalls : ∀ t c, calls'.lookup t = some c →
      ∃ c0, calls.lookup t = some c0 ∧ c0.id = c.id ∧ (c.stage ≠ .waiting → c0.stage ≠ .waiting))
    (hcmd : commands'.Sublist commands) (hcan : ∀ p ∈ cancellations', p ∈ cancellations)
    (hun : unanswered'.Sublist unanswered) :
    TicketInv calls' commands' cancellations' issued unanswered' := by
  have hsub := flight_sublist hcmd hun
  refine ⟨fun t c hc => ?_, fun c hc => h.command c (hcmd.subset hc), fun p hp => h.cancel p (hcan p hp),
    fun t ht => h.flown t (hsub.subset ht), hsub.nodup h.nodup, fun t c hc hst ht => ?_⟩
  · obtain ⟨c0, h0, hid, -⟩ := hcalls t c hc
    obtain ⟨e, he⟩ := h.call t c0 h0
    exact ⟨e, by rw [he, hid]⟩
  · obtain ⟨c0, h0, -, hst0⟩ := hcalls t c hc
    exact h.early t c0 h0 (hst0 hst) (hsub.subset ht)

theorem same_calls (calls : HashMap Ticket Call) (t : Ticket) (c : Call)
    (h : calls.lookup t = some c) :
    ∃ c0, calls.lookup t = some c0 ∧ c0.id = c.id ∧ (c.stage ≠ .waiting → c0.stage ≠ .waiting) :=
  ⟨c, h, rfl, id⟩

/-- A call ends. -/
theorem erased_calls (calls : HashMap Ticket Call) (t0 t : Ticket) (c : Call)
    (h : (calls.erase t0).lookup t = some c) :
    ∃ c0, calls.lookup t = some c0 ∧ c0.id = c.id ∧ (c.stage ≠ .waiting → c0.stage ≠ .waiting) := by
  by_cases heq : t = t0
  · subst heq
    simp [AList.lookup_erase] at h
  · rw [AList.lookup_erase_ne heq] at h
    exact ⟨c, h, rfl, id⟩

/-- A call goes on to a stage no earlier than its own. -/
theorem TicketInv.setStage (h : TicketInv calls commands cancellations issued unanswered)
    {t : Ticket} {c : Call} (hc : calls.lookup t = some c) (stage : Stage)
    (hst : stage ≠ .waiting → c.stage ≠ .waiting) :
    TicketInv (calls.insert t { c with stage := stage }) commands cancellations issued unanswered := by
  refine h.sub (fun t' c' hc' => ?_) (List.Sublist.refl _) (fun p => id) (List.Sublist.refl _)
  by_cases heq : t' = t
  · subst heq
    rw [AList.lookup_insert] at hc'
    cases hc'
    exact ⟨c, hc, rfl, hst⟩
  · rw [AList.lookup_insert_ne heq] at hc'
    exact ⟨c', hc', rfl, id⟩

/-- A new call: its ticket is nowhere yet. -/
theorem TicketInv.allocate (h : TicketInv calls commands cancellations issued unanswered)
    {t : Ticket} (ht : issued t = none) {c : Call} {e : ℕ} :
    TicketInv (calls.insert t c) commands cancellations
      (Function.update issued t (some (c.id, e))) unanswered := by
  -- the ticket is new: nothing that was issued changes, and nothing in flight has it
  have hmono : ∀ t' p, issued t' = some p →
      Function.update issued t (some (c.id, e)) t' = some p := by
    intro t' p hp
    have hne : t' ≠ t := fun heq => by rw [heq, ht] at hp; cases hp
    rw [Function.update_of_ne hne, hp]
  have hnot : t ∉ flight commands unanswered := fun hm => by
    have := h.flown t hm
    simp [ht] at this
  refine ⟨fun t' c' hc' => ?_, fun x hx => ?_, fun p hp => ?_, fun t' ht' => ?_, h.nodup,
    fun t' c' hc' hst => ?_⟩
  · by_cases heq : t' = t
    · subst heq
      rw [AList.lookup_insert] at hc'
      cases hc'
      exact ⟨e, Function.update_self ..⟩
    · rw [AList.lookup_insert_ne heq] at hc'
      obtain ⟨e', he'⟩ := h.call t' c' hc'
      exact ⟨e', hmono t' _ he'⟩
  · have hx' := h.command x hx
    cases x with
    | request id g mt fl p t' | send id g mt p t' =>
      obtain ⟨e', he'⟩ := hx'
      exact ⟨e', hmono _ _ he'⟩
    | connect | close => trivial
  · obtain ⟨e', he'⟩ := h.cancel p hp
    exact ⟨e', hmono _ _ he'⟩
  · obtain ⟨p, hp⟩ := Option.isSome_iff_exists.1 (h.flown t' ht')
    rw [hmono t' p hp]
    rfl
  · by_cases heq : t' = t
    · rwa [heq]
    · rw [AList.lookup_insert_ne heq] at hc'
      exact h.early t' c' hc' hst

/-- A command enters the channel that belongs to no call. -/
theorem TicketInv.push (h : TicketInv calls commands cancellations issued unanswered)
    {c : Command} (hc : c.ticket? = none) :
    TicketInv calls (commands ++ [c]) cancellations issued unanswered := by
  have hflight : flight (commands ++ [c]) unanswered = flight commands unanswered := by
    simp [flight, hc]
  refine ⟨h.call, fun x hx => ?_, h.cancel, hflight ▸ h.flown, hflight ▸ h.nodup, hflight ▸ h.early⟩
  rcases List.mem_append.1 hx with hx | hx
  · exact h.command x hx
  · rw [List.mem_singleton.1 hx]
    cases c with
    | request | send => simp [Command.ticket?] at hc
    | connect | close => trivial

/-- A call's command enters the channel. -/
theorem TicketInv.enqueue (h : TicketInv calls commands cancellations issued unanswered)
    {t : Ticket} {call : Call} (hcall : calls.lookup t = some call)
    (hst : call.stage ≠ .waiting) (generation : UInt64) :
    TicketInv (calls.insert t { call with stage := .waiting })
      (commands ++ [Conn.commandOf t call generation]) cancellations issued unanswered := by
  have hticket : (Conn.commandOf t call generation).ticket? = some t := by
    unfold Conn.commandOf
    split <;> rfl
  have hissued := h.call t call hcall
  -- a call that has not sent has nothing in flight
  have hnot := h.early t call hcall hst
  -- the command is in flight beside what was
  have hperm : (flight (commands ++ [Conn.commandOf t call generation]) unanswered).Perm
      (t :: flight commands unanswered) := by
    simp only [flight, List.filterMap_append, List.filterMap_cons, hticket, List.filterMap_nil,
      List.append_assoc, List.singleton_append]
    exact List.perm_middle
  have hset := h.setStage hcall .waiting (fun hne => absurd rfl hne)
  refine ⟨hset.call, fun x hx => ?_, h.cancel, fun t' ht' => ?_, ?_, fun t' c' hc' hst' ht' => ?_⟩
  · rcases List.mem_append.1 hx with hx | hx
    · exact h.command x hx
    · rw [List.mem_singleton.1 hx]
      unfold Conn.commandOf
      split <;> exact hissued
  · rcases List.mem_cons.1 (hperm.subset ht') with rfl | ht'
    · obtain ⟨e, he⟩ := hissued
      rw [he]
      rfl
    · exact h.flown t' ht'
  · rw [hperm.nodup_iff]
    exact List.nodup_cons.2 ⟨hnot, h.nodup⟩
  · rcases List.mem_cons.1 (hperm.subset ht') with rfl | ht'
    · rw [AList.lookup_insert] at hc'
      cases hc'
      exact hst' rfl
    · exact hset.early t' c' hc' hst' ht'

/-- A guard's cancellation enters its channel. -/
theorem TicketInv.guard (h : TicketInv calls commands cancellations issued unanswered)
    {t : Ticket} {call : Call} (hcall : calls.lookup t = some call) :
    TicketInv (calls.erase t) commands (cancellations ++ [(call.id, t)]) issued unanswered := by
  have hsub := h.sub (erased_calls calls t) (List.Sublist.refl _) (fun p => id) (List.Sublist.refl _)
  refine ⟨hsub.call, hsub.command, fun p hp => ?_, hsub.flown, hsub.nodup, hsub.early⟩
  rcases List.mem_append.1 hp with hp | hp
  · exact h.cancel p hp
  · rw [List.mem_singleton.1 hp]
    exact h.call t call hcall

/-- A frame of no call is written. -/
theorem TicketInv.wrote (h : TicketInv calls commands cancellations issued unanswered)
    {f : Sent} (hf : f.origin.ticket? = none) :
    TicketInv calls commands cancellations issued (unanswered ++ [f]) := by
  have hflight : flight commands (unanswered ++ [f]) = flight commands unanswered := by
    simp [flight, hf]
  exact ⟨h.call, h.command, h.cancel, hflight ▸ h.flown, hflight ▸ h.nodup, hflight ▸ h.early⟩

/-- A command leaves the channel and its frame is written. -/
theorem TicketInv.serve {c : Command} {t : Ticket} {f : Sent}
    (h : TicketInv calls (c :: commands) cancellations issued unanswered)
    (hc : c.ticket? = some t) (hf : f.origin.ticket? = some t) :
    TicketInv calls commands cancellations issued (unanswered ++ [f]) := by
  have hperm : (flight commands (unanswered ++ [f])).Perm (flight (c :: commands) unanswered) := by
    simp only [flight, List.filterMap_append, List.filterMap_cons, hc, hf, List.filterMap_nil,
      ← List.append_assoc, List.cons_append]
    exact List.perm_append_singleton _ _
  exact ⟨h.call, fun x hx => h.command x (List.mem_cons_of_mem _ hx), h.cancel,
    fun t' ht' => h.flown t' (hperm.subset ht'), hperm.nodup_iff.2 h.nodup,
    fun t' c' hc' hst' ht' => h.early t' c' hc' hst' (hperm.subset ht')⟩

/-! ## Every reachable state -/

namespace Conn

variable {cfg : Config} {s : Conn}

def ids (s : Conn) : Prop := IdInv s.issued s.nextTicket s.epoch s.shared.nextRequestId

def tickets (s : Conn) : Prop :=
  TicketInv s.calls s.commands s.cancellations s.issued s.unanswered

@[simp] theorem sent_origin (origin : Origin) (frame : Bytes) : (sent origin frame).origin = origin := by
  unfold sent
  split <;> rfl

theorem ids_advance (h : s.ids) : (s.advance cfg).ids := by
  have ha := advance_advanced cfg s
  generalize s.advance cfg = s' at ha
  cases ha with
  | restart => exact h.restart
  | _ => exact h

/-- Only allocation, the reset and new tickets move the identifiers. -/
theorem ids_step (s : Conn) (e : Event) (hn : s.negotiated) (h : s.ids) : (s.step cfg e).ids := by
  cases e with
  | advance => exact ids_advance h
  | allocate kind messageType payload =>
    simp only [step, allocate]
    split
    · rename_i e herr
      -- the sequence is used up, and stays so
      have hseq : (allocateRequestId s.shared.nextRequestId).2 = s.shared.nextRequestId := by
        unfold allocateRequestId at herr ⊢
        split at herr
        · rename_i h0
          simp [h0]
        · cases herr
      simp only [ids, hseq]
      exact h.tick
    · rename_i id hok
      exact h.allocate hok
  | connect | close =>
    simp only [step, push]
    repeat' split
    all_goals first | exact h | exact h.tick
  | command written | cancel | readError | hangup =>
    simp only [step, command, cancel, readError, hangup, turn_eq]
    repeat' split
    all_goals exact h
  | inbound frame answers written =>
    simp only [step, inbound, turn_eq]
    split
    · rename_i hpc
      obtain ⟨hcap, -, hl⟩ := (negotiated_iff hpc).1 hn
      rw [(Loop.onFrame_framed hl hcap frame written).1]
      exact h
    · exact h
  | auth answer =>
    simp only [step, auth]
    split
    · split
      · exact h
      · rename_i shared hok
        -- an accepted HELLO leaves the sequence
        obtain ⟨mask, hello, -, rfl⟩ := settleAuthentication_ok hok
        exact h
    · exact h
  | stamp t | enqueue t | resume t | abandon t | receive | dial result | restored | requestClose
  | restoreNext key written | restoreRead frame answers | restoreFail =>
    simp only [step, stamp, enqueue, resume, abandon, dropGuard, receive, dial, restored,
      requestClose, restoreNext, restoreRead, restoreFail]
    repeat' split
    all_goals exact h
  | register | deactivate | token | wake => exact h

/-- A command writes at most one frame, and only for a call. -/
theorem onCommand_frames {sh : Shared} {l : Loop} (hcorr : supervisorCorrelationEnabled sh = true)
    (c : Command) (written : Result Unit) :
    (l.onCommand sh c written).effects.filterMap Effect.frame? = [] ∨
      c.ticket?.isSome = true ∧
        ∃ frame, (l.onCommand sh c written).effects.filterMap Effect.frame? = [frame] := by
  cases c with
  | request id generation messageType flags payload t =>
    have hreq := Loop.onRequest_requested (l := l) hcorr id generation messageType flags payload t
      written
    simp only [Loop.onCommand]
    generalize l.onRequest sh id generation messageType flags payload t written = turn at hreq
    cases hreq with
    | stale => exact .inl rfl
    | refused _ hw => exact .inl hw
    | written _ _ _ hw => exact .inr ⟨rfl, _, hw⟩
    | failed _ _ hw => exact .inr ⟨rfl, _, hw⟩
  | send id generation messageType payload t =>
    obtain ⟨effects, heq, hw⟩ := Loop.onSend_sent sh l id generation messageType
      payload t written
    simp only [Loop.onCommand, heq, Loop.next]
    rcases hw with hw | ⟨frame, -, -, hw⟩
    · exact .inl hw
    · exact .inr ⟨rfl, frame, hw⟩
  | connect t => exact .inl rfl
  | close t =>
    left
    simp only [Loop.onCommand, Loop.finish, List.filterMap_append, Loop.frame?_failAll]
    rfl

/-- The origin the loop's frames are recorded under. -/
theorem tickets_command (h : s.tickets) (hn : s.negotiated) (written : Result Unit) :
    (s.command cfg written).tickets := by
  unfold command
  split
  · rename_i c cs hpc hcs
    obtain ⟨-, hcorr, -⟩ := (negotiated_iff hpc).1 hn
    have hframes := onCommand_frames (l := s.loop) hcorr c written
    have hsub : TicketInv s.calls cs s.cancellations s.issued s.unanswered :=
      h.sub (same_calls _) (hcs ▸ List.sublist_cons_self c cs) (fun p => id) (List.Sublist.refl _)
    simp only [tickets, hcs] at h
    simp only [turn_eq]
    rcases hframes with hw | ⟨hsome, frame, hw⟩
    · simp only [hw, List.map_nil, List.append_nil]
      split <;> exact hsub
    · simp only [hw, List.map_cons, List.map_nil]
      cases c with
      | request id generation messageType flags payload t | send id generation messageType payload t =>
        exact h.serve rfl (by rw [sent_origin]; rfl)
      | connect | close => simp [Command.ticket?] at hsome
  · exact h

theorem onCancel_silent {l : Loop} (hl : l.Correlating) (id : UInt64) :
    (l.onCancel id).effects.filterMap Effect.frame? = [] := by
  have hc := Loop.onCancel_canceled hl id
  generalize l.onCancel id = turn at hc
  cases hc with
  | outstanding => exact Loop.frame?_releaseOpt _
  | early => rfl

theorem onFrame_silent {sh : Shared} {l : Loop} (hl : l.Correlating) (hcap : sh.capabilities ≠ 0)
    (frame : Bytes) (written : Result Unit) :
    (l.onFrame sh frame written).2.effects.filterMap Effect.frame? = [] := by
  have hf := (Loop.onFrame_framed hl hcap frame written).2
  generalize (l.onFrame sh frame written).2 = turn at hf
  cases hf with
  | ended hw => exact hw
  | ignored | published => rfl
  | @answered _ slot _ _ _ _ _ _ _ =>
    simp only [Loop.next]
    cases slot.response <;> rfl

/-- Reading a frame takes at most the one it answers from the unanswered. -/
theorem read_unanswered (s : Conn) (frame : Bytes) (answers : Option ℕ) :
    (s.read frame answers).unanswered.Sublist s.unanswered := by
  simp only [read]
  split
  · exact List.eraseIdx_sublist _ _
  · exact List.Sublist.refl _

theorem tickets_endCall (h : s.tickets) (t : Ticket) : (s.endCall t).tickets :=
  h.sub (erased_calls _ t) (List.Sublist.refl _) (fun _ => id) (List.Sublist.refl _)

theorem tickets_dropGuard (h : s.tickets) {t : Ticket} {call : Call}
    (hcall : s.calls.lookup t = some call) : (s.dropGuard t call).tickets := by
  unfold dropGuard
  split
  · exact h.guard hcall
  · exact tickets_endCall h t

theorem tickets_enqueue (h : s.tickets) (t : Ticket) : (s.enqueue cfg t).tickets := by
  unfold enqueue
  split
  · rename_i call hcall
    split
    · rename_i generation hst
      split
      · exact tickets_endCall h t
      · have hearly : call.stage ≠ .waiting := by
          rw [hst]
          simp
        exact h.enqueue hcall hearly generation
    · exact h
  · exact h

/-- What is still queued once `supervise` has received was queued before. -/
theorem mem_commands_receive {c : Command} (h : c ∈ (s.receive cfg).commands) : c ∈ s.commands := by
  unfold receive at h
  split at h
  · rename_i c' cs hpc hcs
    have hmem : ∀ x ∈ cs, x ∈ s.commands := fun x hx => hcs ▸ List.mem_cons_of_mem _ hx
    cases c' with
    | close t => exact absurd h List.not_mem_nil
    | connect | request | send => exact hmem c h
  · exact h

theorem tickets_step (s : Conn) (e : Event) (hn : s.negotiated) (hid : s.ids) (h : s.tickets) :
    (s.step cfg e).tickets := by
  have hrefl : ∀ {α : Type} (l : List α), l.Sublist l := fun l => List.Sublist.refl l
  cases e with
  | command written => exact tickets_command h hn written
  | advance =>
    have ha := advance_advanced cfg s
    simp only [step]
    generalize s.advance cfg = s' at ha
    cases ha <;> exact h
  | allocate kind messageType payload =>
    simp only [step, allocate]
    split
    · exact h
    · exact h.allocate hid.issued_next
  | stamp t =>
    simp only [step, stamp]
    split
    · rename_i call hcall
      split
      · rename_i hst
        exact h.setStage hcall _ (fun _ => by rw [hst]; simp)
      · exact h
    · exact h
  | enqueue t => exact tickets_enqueue h t
  | resume t =>
    simp only [step, resume]
    split
    · exact tickets_endCall h t
    · rename_i call _ hcall _
      exact tickets_dropGuard h hcall
    · exact h
  | abandon t =>
    simp only [step, abandon]
    split
    · rename_i call hcall
      exact tickets_dropGuard h hcall
    · exact h
  | connect | close =>
    simp only [step, push]
    repeat' split
    all_goals first | exact h | exact h.push rfl
  | receive =>
    simp only [step, receive]
    split
    · rename_i c cs hpc hcs
      have hsub : TicketInv s.calls cs s.cancellations s.issued s.unanswered :=
        h.sub (same_calls _) (hcs ▸ List.sublist_cons_self c cs) (fun p => id) (hrefl _)
      cases c with
      | close t => exact hsub.sub (same_calls _) (List.nil_sublist _) (fun p => id) (hrefl _)
      | connect | request | send => exact hsub
    · exact h
  | dial result =>
    simp only [step, dial]
    split
    · exact h.sub (same_calls _) (hrefl _) (fun p => id) (List.nil_sublist _)
    · exact h
  | cancel =>
    simp only [step, cancel, turn_eq]
    split
    · rename_i id cause rest hpc hcan
      obtain ⟨-, -, hl⟩ := (negotiated_iff hpc).1 hn
      simp only [onCancel_silent hl, List.map_nil, List.append_nil]
      exact h.sub (same_calls _) (hrefl _) (fun p hp => hcan ▸ List.mem_cons_of_mem _ hp) (hrefl _)
    · exact h
  | inbound frame answers written =>
    simp only [step, inbound, turn_eq]
    split
    · rename_i hpc
      obtain ⟨hcap, -, hl⟩ := (negotiated_iff hpc).1 hn
      simp only [onFrame_silent hl hcap, List.map_nil, List.append_nil]
      exact h.sub (same_calls _) (hrefl _) (fun p => id) (read_unanswered s frame answers)
    · exact h
  | readError | hangup =>
    simp only [step, readError, hangup, turn_eq]
    split
    · simp only [Loop.onReadError, Loop.onHangup, Loop.finish, List.nil_append,
        Loop.frame?_failAll, List.map_nil, List.append_nil]
      exact h
    all_goals exact h
  | restoreNext key written =>
    simp only [step, restoreNext]
    split
    · split
      · exact h
      · split
        · exact h.wrote (by rw [sent_origin]; rfl)
        · exact h.wrote (by rw [sent_origin]; rfl)
    · exact h
  | restoreRead frame answers =>
    have hread : TicketInv s.calls s.commands s.cancellations s.issued
        (s.read frame answers).unanswered :=
      h.sub (same_calls _) (hrefl _) (fun p => id) (read_unanswered s frame answers)
    simp only [step, restoreRead]
    repeat' split
    all_goals first | exact hread | exact h
  | auth answer | restored | requestClose | restoreFail =>
    simp only [step, auth, restored, requestClose, restoreFail]
    repeat' split
    all_goals exact h
  | register | deactivate | token | wake => exact h

/-- What holds of every reachable connection. -/
structure Base (s : Conn) : Prop where
  negotiated : s.negotiated
  ids : s.ids
  tickets : s.tickets

theorem base_new (cfg : Config) : Base (.new cfg) where
  negotiated := negotiated_new cfg
  ids := ⟨by simp [Conn.new], by simp [Conn.new], by simp [Conn.new]⟩
  tickets := ⟨by simp [Conn.new], by simp [Conn.new], by simp [Conn.new],
    by simp [Conn.new, flight], by simp [Conn.new, flight], by simp [Conn.new]⟩

theorem base_step (s : Conn) (e : Event) (h : Base s) : Base (s.step cfg e) :=
  ⟨negotiated_step s e h.negotiated, ids_step s e h.negotiated h.ids,
    tickets_step s e h.negotiated h.ids h.tickets⟩

theorem base_run (cfg : Config) (es : List Event) : Base (run (Conn.step cfg) (.new cfg) es) :=
  run_inv base_step (base_new cfg) es

/-! ## Steps around a session -/

/-- What a step leaves of a session it does not take part in. -/
structure SessionFrame (s s' : Conn) : Prop where
  loop : s'.loop = s.loop
  tombstones : s'.tombstones = s.tombstones
  epoch : s'.epoch = s.epoch
  serial : s'.serial = s.serial
  hellos : s'.hellos = s.hellos
  maxInFlight : s'.shared.maxInFlight = s.shared.maxInFlight
  issued : ∀ t p, s.issued t = some p → s'.issued t = some p

/-- The session loop takes one of its branches. -/
def inSession : Event → Bool
  | .command _ | .cancel | .inbound _ _ _ => true
  | _ => false

/-- Without running on its own, the task enters no session. -/
theorem session_of_run {task : Supervised} {es : List SupEvent} (hes : SupEvent.advance ∉ es)
    (h : (run (Supervised.step cfg.reconnect) task es).sup.pc = .session) :
    task.sup.pc = .session := by
  induction es generalizing task with
  | nil => exact h
  | cons e es ih =>
    have hne : e ≠ .advance := fun heq => hes (by simp [heq])
    have hpc := ih (fun hin => hes (List.mem_cons_of_mem _ hin)) h
    have hm := step_move cfg.reconnect task.sup e
    have hsup : (task.sup.step cfg.reconnect e).1.pc = .session := hpc
    generalize (task.sup.step cfg.reconnect e).1 = sup' at hm hsup
    generalize (task.sup.step cfg.reconnect e).2 = acts at hm
    generalize task.sup = sup at hm ⊢
    cases hm with
    | stay | requestClose | connected => exact hsup
    | enter => exact absurd rfl hne
    | _ => cases hsup

/-- A session loop is entered from `run_session`'s first step. -/
theorem session_before (s : Conn) (e : Event) (h' : (s.step cfg e).pc = .session) :
    s.pc = .session ∨ s.pc = .entering ∧ e = .advance ∧
      (s.step cfg e).loop = .new s.shared.generation := by
  obtain ⟨es, htask, hadv⟩ := supervises_step cfg s e
  by_cases hes : SupEvent.advance ∈ es
  · -- only `advance` enters a session
    obtain rfl := hadv hes
    have ha := advance_advanced cfg s
    simp only [step] at h' ⊢
    generalize s.advance cfg = s' at ha h'
    cases ha with
    | @plain task hst =>
      have hs : task.sup.pc = .session := h'
      rw [hs] at hst
      rcases hst with hst | hst
      · left
        simp only [stretch] at hst
        generalize s.pc = p at hst
        cases p <;> simp [Pc.stretch] at hst ⊢
      · cases hst
    | negotiate h'' | collect _ h'' | restart _ h'' =>
      exact absurd (h''.symm.trans h') (by simp)
    | enter hpc _ => exact .inr ⟨hpc, trivial, rfl⟩
    | @lose task h'' =>
      rw [show task.sup.pc = .session from h'] at h''
      cases h''
  · left
    rw [pc, htask] at h'
    exact session_of_run hes h'

/-- **A step outside the loop leaves the session alone.** -/
theorem session_frame (s : Conn) (e : Event) (hb : Base s) (hpc : s.pc = .session)
    (he : inSession e = false) (h' : (s.step cfg e).pc = .session) :
    SessionFrame s (s.step cfg e) := by
  have hself : ∀ {s' : Conn}, s'.loop = s.loop → s'.tombstones = s.tombstones →
      s'.epoch = s.epoch → s'.serial = s.serial → s'.hellos = s.hellos →
      s'.shared.maxInFlight = s.shared.maxInFlight → s'.issued = s.issued → SessionFrame s s' :=
    fun h1 h2 h3 h4 h5 h6 h7 => ⟨h1, h2, h3, h4, h5, h6, fun t p hp => h7 ▸ hp⟩
  cases e with
  | command | cancel | inbound => cases he
  | allocate kind messageType payload =>
    simp only [step, allocate]
    split
    · exact hself rfl rfl rfl rfl rfl rfl rfl
    · refine ⟨rfl, rfl, rfl, rfl, rfl, rfl, fun t p hp => ?_⟩
      -- the new call has a ticket of its own
      have hne : t ≠ s.nextTicket := by
        rintro rfl
        rw [hb.ids.issued_next] at hp
        cases hp
      simp only [Function.update_of_ne hne, hp]
  | advance =>
    have ha := advance_advanced cfg s
    simp only [step] at h' ⊢
    generalize s.advance cfg = s' at ha h'
    cases ha with
    | plain => exact hself rfl rfl rfl rfl rfl rfl rfl
    | negotiate => exact hself rfl rfl rfl rfl rfl rfl rfl
    | collect => exact hself rfl rfl rfl rfl rfl rfl rfl
    | restart h => exact absurd (hpc.symm.trans h) (by simp)
    | enter h => exact absurd (hpc.symm.trans h) (by simp)
    | lose => exact hself rfl rfl rfl rfl rfl rfl rfl
  | readError =>
    simp only [step, readError, hpc, turn_eq] at h'
    -- a session whose read failed is lost
    have hidle := afterTurn_disconnected cfg hpc
    rw [show (afterTurn cfg s.task (some .disconnected)).sup.pc = .session from h'] at hidle
    cases hidle
  | hangup =>
    simp only [step, hangup, hpc] at h' ⊢
    split at h'
    · -- the task is gone
      have hdone : ∀ task : Supervised, task.sup.pc = .session →
          ((task.step cfg.reconnect .hangup).step cfg.reconnect .hangup).sup.pc = .done := by
        rintro ⟨⟨pc, n, i, c⟩, st, acts⟩ hs
        cases hs
        rfl
      simp only [turn_eq] at h'
      exact absurd ((hdone s.task hpc).symm.trans h') (by simp)
    · rename_i hrecv _
      cases hrecv
    · exact hself rfl rfl rfl rfl rfl rfl rfl
  | dial result | auth answer | receive | restoreNext key written | restoreRead frame answers
  | restoreFail =>
    simp only [step, dial, auth, receive, restoreNext, restoreRead, restoreFail, hpc]
    exact hself rfl rfl rfl rfl rfl rfl rfl
  | stamp t | enqueue t | resume t | abandon t | connect | close | requestClose | restored =>
    simp only [step, stamp, enqueue, resume, abandon, dropGuard, push, requestClose, restored]
    repeat' split
    all_goals exact hself rfl rfl rfl rfl rfl rfl rfl
  | register | deactivate | token | wake => exact hself rfl rfl rfl rfl rfl rfl rfl

/-- What a branch of the session loop leaves, besides the loop's own locals. -/
structure TurnFrame (s s' : Conn) (t : Turn) : Prop where
  loop : s'.loop = t.loop
  shared : s'.shared = s.shared
  epoch : s'.epoch = s.epoch
  serial : s'.serial = s.serial
  hellos : s'.hellos = s.hellos
  issued : s'.issued = s.issued
  live : s'.pc = .session → t.result ≠ some .disconnected

theorem afterTurn_live {task : Supervised} (hpc : task.sup.pc = .session)
    {r : Option SessionResult} (h : (afterTurn cfg task r).sup.pc = .session) :
    r ≠ some .disconnected := by
  rintro rfl
  have hidle := afterTurn_disconnected cfg hpc
  rw [h] at hidle
  cases hidle

theorem command_frame (cfg : Config) (hpc : s.pc = .session) {c : Command} {cs : List Command}
    (hcs : s.commands = c :: cs) (written : Result Unit) :
    TurnFrame s (s.command cfg written) (s.loop.onCommand s.shared c written) ∧
      (s.command cfg written).tombstones = s.tombstones := by
  simp only [command, hpc, hcs, turn_eq]
  cases c with
  | connect t | close t =>
    exact ⟨⟨rfl, rfl, rfl, rfl, rfl, rfl, fun _ => by
      simp [Loop.onCommand, Loop.next, Loop.finish]⟩, rfl⟩
  | request | send => exact ⟨⟨rfl, rfl, rfl, rfl, rfl, rfl, afterTurn_live hpc⟩, rfl⟩

theorem cancel_frame (cfg : Config) (hpc : s.pc = .session) {id : UInt64} {cause : Ticket}
    {rest : List (UInt64 × Ticket)} (hcan : s.cancellations = (id, cause) :: rest) :
    TurnFrame s (s.cancel cfg) (s.loop.onCancel id) ∧
      (s.cancel cfg).tombstones =
        if id ∈ (s.loop.onCancel id).loop.canceled ∧ id ∉ s.loop.canceled then
          Function.update s.tombstones id (some cause)
        else s.tombstones := by
  simp only [cancel, hpc, hcan, turn_eq]
  exact ⟨⟨rfl, rfl, rfl, rfl, rfl, rfl, afterTurn_live hpc⟩, trivial⟩

theorem inbound_frame (cfg : Config) (hn : s.negotiated) (hpc : s.pc = .session) (frame : Bytes)
    (answers : Option ℕ) (written : Result Unit) :
    TurnFrame s (s.inbound cfg frame answers written) (s.loop.onFrame s.shared frame written).2 ∧
      (s.inbound cfg frame answers written).tombstones = s.tombstones := by
  obtain ⟨hcap, -, hl⟩ := (negotiated_iff hpc).1 hn
  have hsh := (Loop.onFrame_framed hl hcap frame written).1
  simp only [inbound, hpc, turn_eq]
  exact ⟨⟨rfl, hsh, rfl, rfl, rfl, rfl, afterTurn_live hpc⟩, rfl⟩

/-! ## The transport and its limits -/

/-- What the event `e` in `s` does to the transport and the negotiated limits. -/
inductive Atomics (s : Conn) (e : Event) (s' : Conn) : Prop
  | kept (hserial : s'.serial = s.serial)
      (hmax : s'.shared.maxMessageBytes = s.shared.maxMessageBytes)
      (hcap : s'.shared.capabilities = s.shared.capabilities ∨ s'.shared.capabilities = 0)
  | dialed (he : e = .dial (.ok ())) (hpc : s.pc = .dialing) (hserial : s'.serial = s.serial + 1)
      (hcap : s'.shared.capabilities = 0)
  | greeted {answer : Result Bytes} (he : e = .auth answer) (hpc : s.pc = .handshake)
      (hok : settleAuthentication s.shared answer = .ok s'.shared) (hserial : s'.serial = s.serial)

theorem atomics_step (cfg : Config) (s : Conn) (e : Event) (hn : s.negotiated) :
    Atomics s e (s.step cfg e) := by
  cases e with
  | auth answer =>
    simp only [step, auth]
    split
    · rename_i hpc
      split
      · exact .kept rfl rfl (.inl rfl)
      · rename_i shared hok
        exact .greeted rfl hpc hok rfl
    · exact .kept rfl rfl (.inl rfl)
  | dial result =>
    simp only [step, dial]
    split
    · rename_i hpc
      exact .dialed rfl hpc rfl ((negotiated_iff hpc).1 hn)
    · exact .kept rfl rfl (.inl rfl)
  | advance =>
    have ha := advance_advanced cfg s
    simp only [step]
    generalize s.advance cfg = s' at ha
    cases ha with
    | negotiate => exact .kept rfl rfl (.inr rfl)
    | _ => exact .kept rfl rfl (.inl rfl)
  | inbound frame answers written =>
    by_cases hpc : s.pc = .session
    · obtain ⟨hf, -⟩ := inbound_frame cfg hn hpc frame answers written
      exact .kept hf.serial (congrArg Shared.maxMessageBytes hf.shared)
        (.inl (congrArg Shared.capabilities hf.shared))
    · simp only [step, inbound]
      exact .kept rfl rfl (.inl rfl)
  | allocate kind messageType payload =>
    simp only [step, allocate]
    split <;> exact .kept rfl rfl (.inl rfl)
  | command written | cancel | readError | hangup =>
    simp only [step, command, cancel, readError, hangup, turn_eq]
    repeat' split
    all_goals exact .kept rfl rfl (.inl rfl)
  | stamp t | enqueue t | resume t | abandon t | receive | restored | requestClose
  | restoreNext key written | restoreRead frame answers | restoreFail | connect | close =>
    simp only [step, stamp, enqueue, resume, abandon, dropGuard, receive, restored,
      requestClose, restoreNext, restoreRead, restoreFail, push]
    repeat' split
    all_goals exact .kept rfl rfl (.inl rfl)
  | register | deactivate | token | wake => exact .kept rfl rfl (.inl rfl)

/-- The transport is the same until the next is dialed. -/
theorem serial_step (cfg : Config) (hn : s.negotiated) (e : Event) (hst : s.stretch ≠ .dialing) :
    (s.step cfg e).serial = s.serial := by
  have ha := atomics_step cfg s e hn
  cases ha with
  | kept hserial | greeted _ _ _ hserial => exact hserial
  | dialed _ hpc =>
    rw [stretch, hpc] at hst
    exact absurd rfl hst

end Conn

end Fitz

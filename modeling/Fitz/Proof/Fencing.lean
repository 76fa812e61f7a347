import Fitz.Model.Handle
import Fitz.Proof.Fields
import Fitz.Proof.Sessions

/-!
# Generation fencing of handles

A handle keeps the generation read when it was built, an operation checks it, and
a request is stamped with the generation read when its command is made.
`handle_fenced`: in every run in which the generation read at building is that of
the session the response came on, and each stamp on a request of the handle reads
the handle's own, a request of a handle is written on no other session. The check
itself carries nothing: the stamp is read again after it.
-/

namespace Fitz

open Machine

namespace Conn

variable {cfg : Config} {s : Conn}

/-! ## What a step does to calls and commands -/

/-- The steps of a call. -/
def ofCall : Event → Bool
  | .allocate .. | .stamp _ | .enqueue _ | .resume _ | .abandon _ => true
  | _ => false

theorem calls_step {e : Event} (he : ofCall e = false) : (s.step cfg e).calls = s.calls := by
  cases e with
  | allocate | stamp | enqueue | resume | abandon => cases he
  | advance =>
    have ha := advance_advanced cfg s
    simp only [step]
    generalize s.advance cfg = s' at ha
    cases ha <;> rfl
  | command written | cancel | inbound frame answers written | readError | hangup =>
    simp only [step, command, cancel, inbound, readError, hangup, turn_eq]
    repeat' split
    all_goals rfl
  | connect | close | requestClose | receive | dial result | auth answer
  | restoreNext cell written | restoreRead frame answers | restoreFail | restored =>
    simp only [step, push, requestClose, receive, dial, auth, restoreNext, restoreRead, restoreFail,
      restored]
    repeat' split
    all_goals rfl
  | register | deactivate | token | wake => rfl

/-- What the event `e` in `s` does to the calls. -/
inductive Called (s : Conn) (e : Event) (calls : HashMap Ticket Call) : Prop
  | kept (h : calls = s.calls)
  | returned {t : Ticket} (h : calls = s.calls.erase t)
  | allocated {call : Call} (hstage : call.stage = .allocated)
      (h : calls = s.calls.insert s.nextTicket call)
  | stamped {t : Ticket} {call : Call} (he : e = .stamp t) (hcall : s.calls.lookup t = some call)
      (h : calls = s.calls.insert t { call with stage := .stamped s.shared.generation })
  | sent {t : Ticket} {call : Call} (hcall : s.calls.lookup t = some call)
      (h : calls = s.calls.insert t { call with stage := .waiting })

theorem called_step (cfg : Config) (s : Conn) (e : Event) : Called s e (s.step cfg e).calls := by
  cases e with
  | allocate kind messageType payload =>
    simp only [step, allocate]
    split
    · exact .kept rfl
    · exact .allocated rfl rfl
  | stamp t =>
    simp only [step, stamp]
    split
    · rename_i call hcall
      split
      · exact .stamped rfl hcall rfl
      · exact .kept rfl
    · exact .kept rfl
  | enqueue t =>
    simp only [step, enqueue]
    split
    · rename_i call hcall
      split
      · split
        · exact .returned rfl
        · exact .sent hcall rfl
      · exact .kept rfl
    · exact .kept rfl
  | resume t | abandon t =>
    simp only [step, resume, abandon, dropGuard, endCall]
    repeat' split
    all_goals first
      | exact .kept rfl
      | exact .returned rfl
  | _ => exact .kept (calls_step rfl)

/-- A call is an old one, a new one, or an old one in its next stage. -/
theorem called_lookup {e : Event} {t : Ticket} {call : Call}
    (h : (s.step cfg e).calls.lookup t = some call) :
    s.calls.lookup t = some call ∨ t = s.nextTicket ∧ call.stage = .allocated ∨
      ∃ old stage, s.calls.lookup t = some old ∧ call = { old with stage := stage } ∧
        (stage = .waiting ∨ e = .stamp t ∧ stage = .stamped s.shared.generation) := by
  have hc := called_step cfg s e
  -- an insertion changes the entry at its key only
  have hother : ∀ {t' : Ticket} {c : Call}, t ≠ t' → (s.step cfg e).calls = s.calls.insert t' c →
      s.calls.lookup t = some call := by
    intro t' c hne heq
    rwa [heq, AList.lookup_insert_ne hne] at h
  cases hc with
  | kept heq =>
    rw [heq] at h
    exact .inl h
  | @returned t' heq =>
    by_cases ht : t = t'
    · rw [heq, ht, AList.lookup_erase] at h
      cases h
    · rw [heq, AList.lookup_erase_ne ht] at h
      exact .inl h
  | allocated hstage heq =>
    by_cases ht : t = s.nextTicket
    · rw [heq, ht, AList.lookup_insert] at h
      cases h
      exact .inr (.inl ⟨ht, hstage⟩)
    · exact .inl (hother ht heq)
  | @stamped t' old he hcall heq =>
    by_cases ht : t = t'
    · rw [heq, ht, AList.lookup_insert] at h
      cases h
      exact .inr (.inr ⟨old, _, ht ▸ hcall, rfl, .inr ⟨ht ▸ he, rfl⟩⟩)
    · exact .inl (hother ht heq)
  | @sent t' old hcall heq =>
    by_cases ht : t = t'
    · rw [heq, ht, AList.lookup_insert] at h
      cases h
      exact .inr (.inr ⟨old, _, ht ▸ hcall, rfl, .inl rfl⟩)
    · exact .inl (hother ht heq)

/-- A stamp is the generation at the moment it is put on. -/
theorem stamped_step {e : Event} {t : Ticket} {call : Call} {g : UInt64}
    (h : (s.step cfg e).calls.lookup t = some call) (hst : call.stage = .stamped g) :
    (∃ call', s.calls.lookup t = some call' ∧ call'.stage = .stamped g) ∨
      e = .stamp t ∧ g = s.shared.generation := by
  rcases called_lookup h with hold | ⟨-, hnew⟩ | ⟨old, stage, -, rfl, rfl | ⟨he, rfl⟩⟩
  · exact .inl ⟨call, hold, hst⟩
  · rw [hnew] at hst
    cases hst
  · cases hst
  · cases hst
    exact .inr ⟨he, rfl⟩

theorem generation?_commandOf (t : Ticket) (call : Call) (g : UInt64) :
    (commandOf t call g).generation? = some g := by
  unfold commandOf
  split <;> rfl

/-- A new command is that of a call, with its stamp. -/
theorem commands_step {e : Event} {c : Command} {t : Ticket} (h : c ∈ (s.step cfg e).commands)
    (ht : c.ticket? = some t) :
    c ∈ s.commands ∨ ∃ call g, s.calls.lookup t = some call ∧ call.stage = .stamped g ∧
      c = commandOf t call g := by
  cases e with
  | enqueue t' =>
    simp only [step, enqueue] at h
    split at h
    · rename_i call hcall
      split at h
      · rename_i g hst
        split at h
        · exact .inl h
        · rcases List.mem_append.1 h with h | h
          · exact .inl h
          · rw [List.mem_singleton.1 h] at ht ⊢
            -- a command names the call that sends it
            have htt : t' = t := by
              unfold commandOf at ht
              split at ht <;> exact Option.some.inj ht
            subst htt
            exact .inr ⟨call, g, hcall, hst, rfl⟩
      · exact .inl h
    · exact .inl h
  | connect | close =>
    simp only [step, push] at h
    repeat' split at h
    all_goals first
      | exact .inl h
      | rcases List.mem_append.1 h with h | h
        · exact .inl h
        · rw [List.mem_singleton.1 h] at ht
          cases ht
  | receive => exact .inl (mem_commands_receive h)
  | command written =>
    simp only [step, command, turn_eq] at h
    split at h
    · rename_i hcs
      have hmem : ∀ x ∈ _, x ∈ s.commands := fun x hx => hcs ▸ List.mem_cons_of_mem _ hx
      split at h <;> exact .inl (hmem c h)
    · exact .inl h
  | advance =>
    have ha := advance_advanced cfg s
    simp only [step] at h
    generalize s.advance cfg = s' at ha h
    cases ha <;> exact .inl h
  | allocate kind messageType payload =>
    simp only [step, allocate] at h
    split at h <;> exact .inl h
  | stamp t | resume t | abandon t | requestClose | dial result | auth answer | restoreFail | restored
  | restoreNext cell written | restoreRead frame answers | cancel | inbound frame answers written
  | readError | hangup =>
    simp only [step, stamp, resume, abandon, dropGuard, requestClose, dial, auth, restoreFail, restored,
      restoreNext, restoreRead, cancel, inbound, readError, hangup, turn_eq] at h
    repeat' split at h
    all_goals exact .inl h
  | register | deactivate | token | wake => exact .inl h

/-- Tickets are handed out in order, and sessions are only added. -/
theorem counters_step (cfg : Config) (s : Conn) (e : Event) :
    s.nextTicket ≤ (s.step cfg e).nextTicket ∧ ∀ p ∈ s.sessions, p ∈ (s.step cfg e).sessions := by
  cases e with
  | advance =>
    have ha := advance_advanced cfg s
    simp only [step]
    generalize s.advance cfg = s' at ha
    cases ha with
    | enter => exact ⟨le_rfl, fun p hp => List.mem_append_left _ hp⟩
    | _ => exact ⟨le_rfl, fun p hp => hp⟩
  | allocate kind messageType payload =>
    simp only [step, allocate]
    split <;> exact ⟨Nat.le_succ _, fun p hp => hp⟩
  | connect | close =>
    simp only [step, push]
    repeat' split
    all_goals first | exact ⟨le_rfl, fun p hp => hp⟩ | exact ⟨Nat.le_succ _, fun p hp => hp⟩
  | command written | receive | stamp t | enqueue t | resume t | abandon t | requestClose
  | dial result | auth answer | restoreFail | restored | restoreNext cell written
  | restoreRead frame answers | cancel | inbound frame answers written | readError | hangup =>
    simp only [step, command, receive, stamp, enqueue, resume, abandon, dropGuard, requestClose, dial,
      auth, restoreFail, restored, restoreNext, restoreRead, cancel, inbound, readError, hangup, turn_eq]
    repeat' split
    all_goals exact ⟨le_rfl, fun p hp => hp⟩
  | register | deactivate | token | wake => exact ⟨le_rfl, fun p hp => hp⟩

end Conn

/-! ## The condition and the property -/

/-- The generation read is that of the session loop on transport `serial`. -/
def ReadsOf (conn : Conn) (serial : ℕ) : Prop :=
  ∃ p ∈ conn.sessions, p.1 = serial ∧ conn.shared.generation = UInt64.ofNat p.2

/-- A handle is built while the generation is that of the session its response
came on, its requests are stamped with its own, and the counter has not wrapped. -/
def Fenced (s : Handles) (e : HandleEvent) : Prop :=
  s.conn.bumps < 2 ^ 64 ∧
    match e with
    | .build t => ∀ a ∈ s.awaiting.lookup t, ∀ response ∈ a.response,
        ReadsOf s.conn (s.sourceOf t a response)
    | .conn (.stamp t) => ∀ h ∈ s.owner t, ∀ p ∈ s.handles[h]?,
        s.conn.shared.generation = p.1.generation
    | _ => True

/-- Every request of a handle was written on the transport its response came on. -/
def FencedWrites (s : Handles) : Prop :=
  ∀ serial origin t h p, .wrote serial origin ∈ s.conn.log → origin.ticket? = some t →
    s.owner t = some h → s.handles[h]? = some p → serial = p.2

/-! ## The invariant -/

/-- What the fence depends on: each handle as its generation and its transport. -/
structure FenceInv (conn : Conn) (marks : List (UInt64 × ℕ)) (owner : Ticket → Option ℕ) : Prop where
  base : conn.Base
  sessions : conn.sessionsInv
  built : ∀ m ∈ marks, ∃ p ∈ conn.sessions, p.1 = m.2 ∧ m.1 = UInt64.ofNat p.2
  owned : ∀ t h, owner t = some h → t < conn.nextTicket ∧ h < marks.length
  stamped : ∀ t h m call g, owner t = some h → marks[h]? = some m →
    conn.calls.lookup t = some call → call.stage = .stamped g → g = m.1
  queued : ∀ c ∈ conn.commands, ∀ t h m, c.ticket? = some t → owner t = some h →
    marks[h]? = some m → c.generation? = some m.1
  logged : ∀ serial origin t, .wrote serial origin ∈ conn.log → origin.ticket? = some t →
    t < conn.nextTicket
  written : ∀ serial origin t h m, .wrote serial origin ∈ conn.log → origin.ticket? = some t →
    owner t = some h → marks[h]? = some m → serial = m.2

section

variable {cfg : Config} {conn : Conn} {marks : List (UInt64 × ℕ)} {owner : Ticket → Option ℕ}

/-- A command of the channel has a ticket that was handed out. -/
theorem ticket_lt (hb : conn.Base) {c : Command} (hc : c ∈ conn.commands) {t : Ticket}
    (ht : c.ticket? = some t) : t < conn.nextTicket := by
  have hissued := hb.tickets.command c hc
  cases c with
  | request id g messageType flags payload t' | send id g messageType payload t' =>
    cases ht
    obtain ⟨e, he⟩ := hissued
    exact (hb.ids.bound t id e he).1
  | connect | close => cases ht

/-- A step over the connection. -/
theorem FenceInv.conn_step (h : FenceInv conn marks owner) (cfg : Config) (e : Event)
    (hwrap : conn.bumps < 2 ^ 64)
    (hstamp : ∀ t, e = .stamp t → ∀ i m, owner t = some i → marks[i]? = some m →
      conn.shared.generation = m.1) : FenceInv (conn.step cfg e) marks owner := by
  obtain ⟨hticket, hsess⟩ := Conn.counters_step cfg conn e
  obtain ⟨new, hnew, hex⟩ := Conn.log_step cfg conn e h.base.negotiated
  -- what a step writes for a call is a command the session took
  have hserved : ∀ serial origin t, .wrote serial origin ∈ new → origin.ticket? = some t →
      serial = conn.serial ∧ conn.pc = .session ∧ ∃ c ∈ conn.commands, c.ticket? = some t ∧
        c.generation? = some conn.loop.sessionGeneration := by
    intro serial origin t hmem ht
    obtain ⟨hserial, ⟨cell, rfl⟩ | ⟨c, t', ⟨hpc, -, cs, hcs⟩, hct, hot, hg⟩⟩ := hex _ hmem
    · cases ht
    · rw [ht] at hot
      cases hot
      exact ⟨hserial, hpc, c, by simp [hcs], hct, hg⟩
  refine ⟨Conn.base_step conn e h.base, Conn.sessionsInv_step conn e h.base.negotiated h.sessions,
    fun m hm => ?_, fun t i hi => ?_, fun t i m call g hi hm hcall hst => ?_,
    fun c hc t i m ht hi hm => ?_, fun serial origin t hmem ht => ?_,
    fun serial origin t i m hmem ht hi hm => ?_⟩
  · obtain ⟨p, hp, heq⟩ := h.built m hm
    exact ⟨p, hsess p hp, heq⟩
  · exact ⟨lt_of_lt_of_le (h.owned t i hi).1 hticket, (h.owned t i hi).2⟩
  · rcases Conn.stamped_step hcall hst with ⟨call', hcall', hst'⟩ | ⟨rfl, rfl⟩
    · exact h.stamped t i m call' g hi hm hcall' hst'
    · exact hstamp t rfl i m hi hm
  · rcases Conn.commands_step hc ht with hc | ⟨call, g, hcall, hst, rfl⟩
    · exact h.queued c hc t i m ht hi hm
    · rw [Conn.generation?_commandOf, h.stamped t i m call g hi hm hcall hst]
  · rw [hnew] at hmem
    rcases List.mem_append.1 hmem with hmem | hmem
    · exact lt_of_lt_of_le (h.logged serial origin t hmem ht) hticket
    · obtain ⟨-, -, c, hc, hct, -⟩ := hserved serial origin t hmem ht
      exact lt_of_lt_of_le (ticket_lt h.base hc hct) hticket
  · rw [hnew] at hmem
    rcases List.mem_append.1 hmem with hmem | hmem
    · exact h.written serial origin t i m hmem ht hi hm
    · -- the session that takes the command has the generation of the handle's own session
      obtain ⟨rfl, hpc, c, hc, hct, hg⟩ := hserved serial origin t hmem ht
      obtain ⟨earlier, b, hlive, hgen⟩ := h.sessions.live hpc
      obtain ⟨p, hp, hp2, hpg⟩ := h.built m (List.mem_of_getElem? hm)
      have hown := h.queued c hc t i m hct hi hm
      rw [hg, Option.some.injEq] at hown
      have hq : (conn.serial, b) ∈ conn.sessions := by rw [hlive]; simp
      have heq := Conn.session_of_generation h.sessions hwrap hq hp
        (hgen.symm.trans (hown.trans hpg))
      rw [← hp2, ← heq]

/-- New handles, built under the condition. -/
theorem FenceInv.build (h : FenceInv conn marks owner) {marks' : List (UInt64 × ℕ)}
    (hnew : ∀ m ∈ marks', ∃ p ∈ conn.sessions, p.1 = m.2 ∧ m.1 = UInt64.ofNat p.2) :
    FenceInv conn (marks ++ marks') owner := by
  have hold : ∀ {t i m}, owner t = some i → (marks ++ marks')[i]? = some m → marks[i]? = some m :=
    fun hi hm => by rwa [List.getElem?_append_left (h.owned _ _ hi).2] at hm
  refine ⟨h.base, h.sessions, fun m hm => ?_, fun t i hi => ?_, fun t i m call g hi hm => ?_,
    fun c hc t i m ht hi hm => ?_, h.logged, fun serial origin t i m hmem ht hi hm => ?_⟩
  · rcases List.mem_append.1 hm with hm | hm
    · exact h.built m hm
    · exact hnew m hm
  · refine ⟨(h.owned t i hi).1, ?_⟩
    rw [List.length_append]
    exact Nat.lt_add_right _ (h.owned t i hi).2
  · exact h.stamped t i m call g hi (hold hi hm)
  · exact h.queued c hc t i m ht hi (hold hi hm)
  · exact h.written serial origin t i m hmem ht hi (hold hi hm)

/-- A call for a handle gets a ticket nothing has yet. -/
theorem FenceInv.issue (h : FenceInv conn marks owner) (hwrap : conn.bumps < 2 ^ 64) {i : ℕ}
    (hi : i < marks.length) (kind : CallKind) (messageType : UInt16) (payload : Bytes) :
    FenceInv (conn.step cfg (.allocate kind messageType payload)) marks
      (Function.update owner conn.nextTicket (some i)) := by
  have hstep := h.conn_step cfg (.allocate kind messageType payload) hwrap (by simp)
  have hcommands : (conn.step cfg (.allocate kind messageType payload)).commands = conn.commands ∧
      (conn.step cfg (.allocate kind messageType payload)).log = conn.log ∧
      (conn.step cfg (.allocate kind messageType payload)).nextTicket = conn.nextTicket + 1 := by
    simp only [Conn.step, Conn.allocate]
    split <;> exact ⟨rfl, rfl, rfl⟩
  -- the owner of an old ticket is as it was
  have hother : ∀ {t i'}, t < conn.nextTicket →
      Function.update owner conn.nextTicket (some i) t = some i' → owner t = some i' :=
    fun ht hu => by rwa [Function.update_of_ne (Nat.ne_of_lt ht)] at hu
  refine ⟨hstep.base, hstep.sessions, hstep.built, fun t i' hu => ?_,
    fun t i' m call g hu hm hcall hst => ?_, fun c hc t i' m ht hu hm => ?_, hstep.logged,
    fun serial origin t i' m hmem ht hu hm => ?_⟩
  · by_cases ht : t = conn.nextTicket
    · subst ht
      rw [Function.update_self] at hu
      cases hu
      exact ⟨by rw [hcommands.2.2]; exact Nat.lt_succ_self _, hi⟩
    · rw [Function.update_of_ne ht] at hu
      exact hstep.owned t i' hu
  · rcases Conn.stamped_step hcall hst with ⟨call', hcall', hst'⟩ | ⟨hne, -⟩
    · obtain ⟨e, he⟩ := h.base.tickets.call t call' hcall'
      exact h.stamped t i' m call' g (hother (h.base.ids.bound t _ e he).1 hu) hm hcall' hst'
    · cases hne
  · rw [hcommands.1] at hc
    exact h.queued c hc t i' m ht (hother (ticket_lt h.base hc ht) hu) hm
  · rw [hcommands.2.1] at hmem
    exact h.written serial origin t i' m hmem ht (hother (h.logged serial origin t hmem ht) hu) hm

end

/-! ## Handles keep their generation -/

namespace Handle

@[simp] theorem generation_opened (h : Handle) (o : Operation) :
    (h.opened o).generation = h.generation := by
  unfold opened
  split <;> rfl

theorem generation_claim {h h' : Handle} {o : Operation} (hc : h.claim o = .ok h') :
    h'.generation = h.generation := by
  unfold claim at hc
  repeat' split at hc
  all_goals
    cases hc
    try rfl

@[simp] theorem generation_conclude (h : Handle) (o : Operation) (answer : Option (Result Bytes)) :
    (h.conclude o answer).generation = h.generation := by
  unfold conclude
  repeat' split
  all_goals rfl

end Handle

theorem reservedItems_generation {route : String} {g : UInt64} {count : ℕ} {d d' : PayloadDecoder}
    {items : List QueueItem} (h : (reservedItems route g count).run d = .ok (items, d')) :
    ∀ item ∈ items, item.generation = g := by
  induction count generalizing d d' items with
  | zero =>
    cases h
    simp
  | succ count ih =>
    unfold reservedItems at h
    obtain ⟨concrete, d1, -, h⟩ := Decode.bind_ok h
    obtain ⟨id, d2, -, h⟩ := Decode.bind_ok h
    obtain ⟨token, d3, -, h⟩ := Decode.bind_ok h
    obtain ⟨body, d4, -, h⟩ := Decode.bind_ok h
    obtain ⟨rest, d5, hrest, h⟩ := Decode.bind_ok h
    cases h
    intro item hitem
    rcases List.mem_cons.1 hitem with rfl | hitem
    · rfl
    · exact ih hrest item hitem

/-- **What is built carries the generation that was read.** -/
theorem Opening.handles_generation {o : Opening} {g : UInt64} {response : Bytes}
    {completion : Option (Result Bytes)} {hs : List Handle}
    (h : o.handles g response completion = some (.ok hs)) : ∀ x ∈ hs, x.generation = g := by
  cases o with
  | kvBegin route mode =>
    simp only [handles, Option.some.injEq] at h
    obtain ⟨d, h⟩ := Decode.on_ok h
    obtain ⟨-, d1, -, h⟩ := Decode.bind_ok h
    obtain ⟨id, d2, -, h⟩ := Decode.bind_ok h
    cases h
    simp [Handle.generation]
  | streamBegin route metadata =>
    simp only [handles, Option.some.injEq] at h
    cases hd : decodeStreamResponse "BEGIN" response with
    | error e => simp [hd, bind, Except.bind] at h
    | ok decoded =>
      simp only [hd, bind, Except.bind] at h
      split at h
      · cases h
        simp [Handle.generation]
      · cases h
  | leaseAcquire route ownerId ttlSecs waitSeconds =>
    simp only [handles] at h
    split at h
    · cases h
    · cases h
      simp [Handle.generation]
    · -- a queued ACQUIRE is answered by its completion
      obtain ⟨r, -, hr⟩ := Option.map_eq_some_iff.1 h
      cases r with
      | error e => simp [bind, Except.bind] at hr
      | ok payload =>
        cases ht : completionToken payload with
        | error e => simp [ht, bind, Except.bind] at hr
        | ok token =>
          simp only [ht, bind, Except.bind, pure, Except.pure, Except.ok.injEq] at hr
          subst hr
          simp [Handle.generation]
  | queueReserve route leaseSeconds batchSize waitSeconds =>
    simp only [handles, Option.some.injEq] at h
    obtain ⟨d, h⟩ := Decode.on_ok h
    obtain ⟨-, d1, -, h⟩ := Decode.bind_ok h
    obtain ⟨empty, d2, -, h⟩ := Decode.bind_ok h
    split at h
    · cases h
      simp
    · obtain ⟨count, d3, -, h⟩ := Decode.bind_ok h
      obtain ⟨items, d4, hitems, h⟩ := Decode.bind_ok h
      cases h
      intro x hx
      obtain ⟨item, hitem, rfl⟩ := List.mem_map.1 hx
      exact reservedItems_generation hitems item hitem

namespace Handles

variable {cfg : Config} {policy : RetryPolicy} {s : Handles}

def marks (s : Handles) : List (UInt64 × ℕ) := s.handles.map fun p => (p.1.generation, p.2)

def fenceInv (s : Handles) : Prop := FenceInv s.conn s.marks s.owner

@[simp] theorem marks_proceed (i : ℕ) (progress : Progress) :
    (s.proceed i progress).marks = s.marks := rfl

/-- An update that keeps the generation of a handle. -/
theorem marks_setHandle {i serial : ℕ} {h h' : Handle} (hi : s.handles[i]? = some (h, serial))
    (hg : h'.generation = h.generation) : (s.setHandle i h').marks = s.marks := by
  apply List.ext_getElem?
  intro j
  simp only [marks, setHandle, List.getElem?_map, List.getElem?_modify]
  split
  · rename_i hij
    subst hij
    simp [hi, hg]
  · simp

theorem fenceInv_build (h : s.fenceInv) {t : Ticket} (hcond : Fenced s (.build t)) :
    (s.build t).fenceInv := by
  unfold build
  split
  · rename_i a ha
    split
    · rename_i response hresponse
      split
      · rename_i hs hbuilt
        have hgen := Opening.handles_generation hbuilt
        obtain ⟨p, hp, hserial, hread⟩ := hcond.2 a ha response hresponse
        simp only [fenceInv, marks, List.map_append]
        refine FenceInv.build h fun m hm => ?_
        obtain ⟨q, hq, rfl⟩ := List.mem_map.1 hm
        obtain ⟨x, hx, rfl⟩ := List.mem_map.1 hq
        exact ⟨p, hp, hserial, (hgen x hx).trans hread⟩
      · exact h
      · exact h
    · exact h
  · exact h

theorem fenceInv_issue (h : s.fenceInv) {i : ℕ} (hwrap : s.conn.bumps < 2 ^ 64) :
    (s.issue cfg i).fenceInv := by
  unfold issue
  split
  · rename_i o ho
    split
    · rename_i x serial hprog hx
      split
      · rename_i x' messageType payload _ hclaim _
        have hlt : o.handle < s.marks.length := by
          rw [marks, List.length_map]
          exact (List.getElem?_eq_some_iff.1 hx).1
        have hmarks := marks_setHandle hx (Handle.generation_claim hclaim)
        simp only [fenceInv]
        rw [show ({ (s.setHandle o.handle x').proceed i (.issued s.conn.nextTicket) with
            conn := s.conn.step cfg (.allocate (.request 0) messageType payload)
            owner := Function.update s.owner s.conn.nextTicket (some o.handle) } : Handles).marks =
            s.marks from hmarks]
        exact FenceInv.issue h hwrap hlt _ messageType payload
      · exact h
    · exact h
  · exact h

/-- **One step keeps the fence** under the condition. -/
theorem fenceInv_step (s : Handles) (e : HandleEvent) (h : s.fenceInv) (hcond : Fenced s e) :
    (s.step cfg policy e).fenceInv := by
  have hsame : ∀ {s' : Handles}, s'.conn = s.conn → s'.marks = s.marks → s'.owner = s.owner →
      s'.fenceInv := by
    intro s' h1 h2 h3
    rw [fenceInv, h1, h2, h3]
    exact h
  cases e with
  | conn e =>
    refine FenceInv.conn_step h cfg e hcond.1 fun t he i m hi hm => ?_
    subst he
    -- a stamp of a handle's request is where the condition is needed
    obtain ⟨p, hp, rfl⟩ := Option.map_eq_some_iff.1 ((List.getElem?_map ..).symm.trans hm)
    exact hcond.2 i hi p hp
  | call opening mark =>
    simp only [step, call]
    split
    · exact h
    · exact FenceInv.conn_step h cfg (.allocate _ _ _) hcond.1 (by simp)
  | receive t =>
    simp only [step, receive]
    split
    · exact FenceInv.conn_step h cfg (.resume t) hcond.1 (by simp)
    · exact h
  | build t => exact fenceInv_build h hcond
  | issue i => exact fenceInv_issue h hcond.1
  | operate handle operation =>
    simp only [step, operate]
    split
    · rename_i x serial hx
      split
      · exact hsame rfl (marks_setHandle hx (by simp)) rfl
      · exact h
    · exact h
  | attempt i =>
    simp only [step, attempt]
    repeat' split
    all_goals exact h
  | retry i =>
    simp only [step, retry]
    repeat' split
    all_goals exact h
  | finish i answer =>
    simp only [step, finish]
    split
    · split
      · rename_i x serial hprog hx
        split
        · exact hsame rfl (marks_setHandle hx (by simp)) rfl
        · exact h
      · exact h
    · exact h

end Handles

open Handles in
/-- **Handles are fenced.** In every run in which a handle is built while the
generation is that of the session its response came on, each request of a handle
is stamped with the handle's own generation, and the counter does not wrap, no
request of a handle is written on another transport than the one its response
came on. -/
theorem handle_fenced (cfg : Config) (policy : RetryPolicy) (es : List HandleEvent)
    (h : Along (Handles.step cfg policy) Fenced (.new cfg) es) :
    FencedWrites (run (Handles.step cfg policy) (.new cfg) es) := by
  -- at the start there is nothing to fence
  have hnew : (Handles.new cfg).fenceInv := by
    refine ⟨Conn.base_new cfg, Conn.sessions_run cfg [], ?_, ?_, ?_, ?_, ?_, ?_⟩ <;>
      simp [Handles.new, marks, Conn.new]
  have hinv := along_inv fenceInv_step hnew h
  intro serial origin t i p hmem ht hi hp
  exact hinv.written serial origin t i (p.1.generation, p.2) hmem ht hi (by simp [marks, hp])

section Decidable

instance (conn : Conn) (serial : ℕ) : Decidable (ReadsOf conn serial) :=
  inferInstanceAs (Decidable (∃ p ∈ conn.sessions, _ ∧ _))

instance (s : Handles) (e : HandleEvent) : Decidable (Fenced s e) :=
  match e with
  | .build t => inferInstanceAs (Decidable (_ ∧ ∀ a ∈ s.awaiting.lookup t,
      ∀ response ∈ a.response, ReadsOf s.conn (s.sourceOf t a response)))
  | .conn (.stamp t) => inferInstanceAs (Decidable (_ ∧ ∀ h ∈ s.owner t, ∀ p ∈ s.handles[h]?, _ = _))
  | .call .. | .receive _ | .operate .. | .attempt _ | .issue _ | .retry _ | .finish .. =>
    inferInstanceAs (Decidable (_ ∧ True))
  | .conn (.allocate ..) | .conn (.enqueue ..) | .conn (.resume ..) | .conn (.abandon ..)
  | .conn .connect | .conn .requestClose | .conn .close | .conn (.register ..)
  | .conn (.deactivate ..) | .conn .advance | .conn .receive | .conn .hangup | .conn (.token ..)
  | .conn (.dial ..) | .conn (.auth ..) | .conn (.restoreNext ..) | .conn (.restoreRead ..)
  | .conn .restoreFail | .conn .restored | .conn .wake | .conn .cancel | .conn (.command ..)
  | .conn (.inbound ..) | .conn .readError => inferInstanceAs (Decidable (_ ∧ True))

end Decidable

/-- A session in which a BEGIN is answered with the transaction 5, up to the
caller having the response. -/
def begunRun : List HandleEvent :=
  (firstSession 8).map .conn ++ [.call (.kvBegin "kv://r/a/s" .readWrite) 0, .conn (.stamp 1),
    .conn (.enqueue 1), .conn (.command (.ok ())),
    .conn (.inbound (replyFrame 100 1 (0 :: putU64 5)) (some 0) (.ok ())), .receive 1]

/-- A PUT of the transaction, up to its frame. -/
def putRun : List HandleEvent :=
  [.operate 0 (.kvPut [107] [118]), .issue 0, .conn (.stamp 2), .conn (.enqueue 2),
    .conn (.command (.ok ()))]

theorem handle_fenced_put :
    Obs.wrote 1 (.request 2) ∈ (run (Handles.step ⟨4, ⟨true, 0⟩⟩ ⟨false, 1⟩) (.new ⟨4, ⟨true, 0⟩⟩)
        (begunRun ++ [.build 1] ++ putRun)).conn.log ∧
      FencedWrites (run (Handles.step ⟨4, ⟨true, 0⟩⟩ ⟨false, 1⟩) (.new ⟨4, ⟨true, 0⟩⟩)
        (begunRun ++ [.build 1] ++ putRun)) :=
  ⟨by decide +kernel, handle_fenced ⟨4, ⟨true, 0⟩⟩ ⟨false, 1⟩ (begunRun ++ [.build 1] ++ putRun)
    (by decide +kernel)⟩

/-- The session is lost and the next one entered. -/
def reopened : List HandleEvent := (reopenRun 8 ++ enterRun).map .conn

/-- A transaction of the first session has a PUT written on the second: built too
late, or checked before the loss and stamped after it. -/
theorem stale_handle_writes :
    ¬ FencedWrites (run (Handles.step ⟨4, ⟨true, 0⟩⟩ ⟨false, 1⟩) (.new ⟨4, ⟨true, 0⟩⟩)
        (begunRun ++ reopened ++ [.build 1] ++ putRun)) ∧
      ¬ FencedWrites (run (Handles.step ⟨4, ⟨true, 0⟩⟩ ⟨false, 1⟩) (.new ⟨4, ⟨true, 0⟩⟩)
        (begunRun ++ [.build 1, .operate 0 (.kvPut [107] [118])] ++ reopened ++
          [.issue 0, .conn (.stamp 2), .conn (.enqueue 2), .conn (.command (.ok ()))])) := by
  constructor
  · intro h
    exact absurd (h 2 (.request 2) 2 0 (.kv ⟨1, 5, "kv://r/a/s", false⟩, 1) (by decide +kernel) rfl
      (by decide +kernel) (by decide +kernel)) (by decide)
  · intro h
    exact absurd (h 2 (.request 2) 2 0 (.kv ⟨0, 5, "kv://r/a/s", false⟩, 1) (by decide +kernel) rfl
      (by decide +kernel) (by decide +kernel)) (by decide)

end Fitz

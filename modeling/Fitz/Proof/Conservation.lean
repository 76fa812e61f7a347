import Fitz.Lib.Outputs
import Fitz.Proof.Passages

/-!
# No caller is lost, and none overtakes another

A call hands its command to the channel and waits on its `oneshot`. From then on it has
one place: its command is in the channel, its sender is in a slot of the session loop, or
its `oneshot` is settled. `calls_conserved`: in every run, whatever the callers, the
supervisor and the transports do, every call whose command entered the channel has one
place, every other call has none, and outside a session loop no slot keeps a caller.
`writes_in_order`: over all sessions of a run the frames of calls are written in the order
in which their commands entered the channel, each once at most.
-/

namespace Fitz

open Machine

namespace Conn

variable {cfg : Config} {s : Conn} {e : Event} {t : Ticket}

/-- The calls whose commands entered the channel in a run, oldest first. -/
def entered (cfg : Config) (es : List Event) : List Ticket :=
  outputs (Conn.step cfg) (enters cfg) (.new cfg) es

/-- The calls whose commands are in the channel. -/
def queuedCalls (s : Conn) : List Ticket := s.commands.filterMap Command.ticket?

/-- In how many places the call is. -/
def places (s : Conn) (t : Ticket) : ℕ :=
  s.queuedCalls.count t + s.loop.waiters.count t + (s.answers.map Prod.fst).count t

/-! ## One step -/

/-- A turn moves callers from the slots to the settled. -/
theorem places_turn {sh : Shared} {frame : Option Bytes} {taken : List Command}
    {arrived : List Ticket} {turn : Turn}
    (h : AccountedTurn sh frame taken arrived s.loop turn) (t : Ticket) :
    turn.loop.waiters.count t +
        ((s.answers ++ turn.effects.filterMap answer?).map Prod.fst).count t =
      s.loop.waiters.count t + (s.answers.map Prod.fst).count t +
        (arrived ++ turn.effects.filterMap Effect.acknowledged?).count t := by
  have hbalance := h.accounted.balance t
  rw [List.map_append, List.count_append, List.count_append, count_answer?]
  omega

/-- Beside the calls that enter, only `connect` and `close` commands come to be settled. -/
theorem places_step (hn : s.negotiated) (hidle : s.pc ≠ .session → s.loop.waiters = []) :
    ∃ control : List Ticket,
      (∀ t ∈ control, ∃ c ∈ s.commands, c.ticket? = none ∧ c.response = t) ∧
        ∀ t, (s.step cfg e).places t =
          s.places t + (s.enters cfg e).count t + control.count t := by
  have hp := passed_step cfg s e hn
  generalize s.step cfg e = s' at hp
  cases hp with
  | kept hcommands hloop hanswers _ _ henters =>
    refine ⟨[], by simp, fun t => ?_⟩
    simp only [places, queuedCalls, hcommands, hloop, hanswers, henters, List.count_nil]
    omega
  | @joined c hcommands hloop hanswers _ _ henters =>
    refine ⟨[], by simp, fun t => ?_⟩
    have hc : [c].filterMap Command.ticket? = c.ticket?.toList := by
      cases hc : c.ticket? <;> simp [hc]
    simp only [places, queuedCalls, hcommands, hloop, hanswers, henters, List.filterMap_append,
      List.count_append, hc, List.count_nil]
    omega
  | @received c cs _ hcs hcommands hloop hanswers _ henters =>
    refine ⟨[], by simp, fun t => ?_⟩
    have hhead : (c :: cs).filterMap Command.ticket? =
        c.ticket?.toList ++ cs.filterMap Command.ticket? := by
      cases hc : c.ticket? <;> simp [hc]
    have hfst : (c.ticket?.toList.map fun t =>
        (t, some (Except.error FitzError.connectionClosed : Result Bytes))).map Prod.fst =
          c.ticket?.toList := by
      cases c.ticket? <;> rfl
    simp only [places, queuedCalls, hcs, hcommands, hloop, hanswers, henters, hhead,
      List.map_append, hfst, List.count_append, List.count_nil]
    omega
  | @shut t' cs _ hcs hcommands hloop hanswers _ henters =>
    refine ⟨[], by simp, fun t => ?_⟩
    have hhead : (Command.close t' :: cs).filterMap Command.ticket? =
        cs.filterMap Command.ticket? := rfl
    have hfst : ((cs.filterMap Command.ticket?).map fun t =>
        (t, (none : Option (Result Bytes)))).map Prod.fst = cs.filterMap Command.ticket? := by
      rw [List.map_map]
      exact List.map_id _
    simp only [places, queuedCalls, hcs, hcommands, hloop, hanswers, henters, hhead,
      List.map_append, hfst, List.filterMap_nil, List.count_append, List.count_nil]
    omega
  | began hpc hcommands hloop hanswers _ henters =>
    -- the loop that is replaced kept nobody
    refine ⟨[], by simp, fun t => ?_⟩
    have hnew : ∀ generation, (Loop.new generation).waiters = [] := fun _ => rfl
    simp only [places, queuedCalls, hcommands, hloop, hanswers, henters, hnew, hidle hpc,
      List.count_nil]
    omega
  | @served c cs written hpc hcs hcommands hloop hanswers _ _ henters =>
    obtain ⟨-, -, hl⟩ := (negotiated_iff hpc).1 hn
    obtain ⟨taken, htaken⟩ := slotInv_correlating hl
    have hslots : SlotInv (taken ++ [c]) s.loop :=
      htaken.mono fun _ => List.mem_append_left _
    have hturn : AccountedTurn s.shared none (taken ++ [c]) c.requester?.toList s.loop
        (s.loop.onCommand s.shared c written) :=
      onCommand_accounted hslots (fun _ => List.mem_append_right _ (List.mem_singleton_self c)) written
    have hhead : (c :: cs).filterMap Command.ticket? =
        c.ticket?.toList ++ cs.filterMap Command.ticket? := by
      cases hc : c.ticket? <;> simp [hc]
    -- a command that is no call's is settled by its acknowledgement
    refine ⟨if c.ticket? = none then [c.response] else [], fun t ht => ?_, fun t => ?_⟩
    · split at ht
      · rename_i hnone
        obtain rfl := List.mem_singleton.1 ht
        exact ⟨c, by rw [hcs]; exact List.mem_cons_self, hnone, rfl⟩
      · cases ht
    · have hmoved := places_turn hturn t
      rw [onCommand_acknowledged] at hmoved
      have hresponse : [c.response].count t =
          c.ticket?.toList.count t +
            (if c.ticket? = none then [c.response] else []).count t := by
        cases c <;> simp [Command.ticket?, Command.response]
      simp only [places, queuedCalls, hcs, hcommands, hloop, hanswers, henters, hhead,
        List.count_append, List.count_nil] at hmoved ⊢
      omega
  | @turned turn hpc hturn hcommands hloop hanswers _ _ henters =>
    obtain ⟨-, -, hl⟩ := (negotiated_iff hpc).1 hn
    obtain ⟨taken, htaken⟩ := slotInv_correlating hl
    obtain ⟨sh, frame, hacc⟩ := hturn.accounted
    refine ⟨[], by simp, fun t => ?_⟩
    have hmoved := places_turn (hacc taken htaken) t
    rw [hturn.acknowledged] at hmoved
    simp only [places, queuedCalls, hcommands, hloop, hanswers, henters, List.append_nil,
      List.count_nil] at hmoved ⊢
    omega

/-- Outside a session loop no slot keeps a caller. -/
theorem idle_step (hn : s.negotiated) (hidle : s.pc ≠ .session → s.loop.waiters = [])
    (hpc' : (s.step cfg e).pc ≠ .session) : (s.step cfg e).loop.waiters = [] := by
  have hp := passed_step cfg s e hn
  generalize s.step cfg e = s' at hp hpc'
  cases hp with
  | kept _ hloop _ _ hpc | joined _ hloop _ _ hpc =>
    rw [hloop]
    exact hidle fun h => hpc' (hpc h)
  | received hpc _ _ hloop | shut hpc _ _ hloop =>
    rw [hloop]
    exact hidle hpc
  | began _ _ hloop =>
    rw [hloop]
    rfl
  | @served c cs written hpc hcs _ hloop _ _ hend =>
    obtain ⟨-, -, hl⟩ := (negotiated_iff hpc).1 hn
    obtain ⟨taken, htaken⟩ := slotInv_correlating hl
    have hslots : SlotInv (taken ++ [c]) s.loop :=
      htaken.mono fun _ => List.mem_append_left _
    have hturn : AccountedTurn s.shared none (taken ++ [c]) c.requester?.toList s.loop
        (s.loop.onCommand s.shared c written) :=
      onCommand_accounted hslots (fun _ => List.mem_append_right _ (List.mem_singleton_self c)) written
    rw [hloop]
    exact (hturn.cleared (hend hpc')).waiters
  | turned hpc hturn _ hloop _ _ hend =>
    obtain ⟨-, -, hl⟩ := (negotiated_iff hpc).1 hn
    obtain ⟨taken, htaken⟩ := slotInv_correlating hl
    obtain ⟨sh, frame, hacc⟩ := hturn.accounted
    rw [hloop]
    exact ((hacc taken htaken).cleared (hend hpc')).waiters

/-- An id is issued to the next ticket, in a step that sends nothing. -/
theorem issued_step (cfg : Config) (s : Conn) (e : Event) :
    (s.step cfg e).issued = s.issued ∨ (s.step cfg e).commands = s.commands ∧
      (s.enters cfg e) = [] ∧
      ∃ p, (s.step cfg e).issued = Function.update s.issued s.nextTicket (some p) := by
  cases e with
  | allocate kind messageType payload =>
    simp only [step, allocate]
    split
    · exact .inl rfl
    · exact .inr ⟨rfl, rfl, _, rfl⟩
  | advance =>
    have ha := advance_advanced cfg s
    simp only [step]
    generalize s.advance cfg = s' at ha
    cases ha <;> exact .inl rfl
  | command written | cancel | inbound frame answers written | readError | hangup =>
    simp only [step, command, cancel, inbound, readError, hangup, turn_eq]
    repeat' split
    all_goals exact .inl rfl
  | stamp t | enqueue t | resume t | abandon t | connect | close | requestClose | receive
  | dial result | auth answer | restoreNext cell written | restoreRead frame answers | restoreFail
  | restored =>
    simp only [step, stamp, enqueue, resume, abandon, dropGuard, push, requestClose, receive,
      dropCommands, dial, auth, restoreNext, restoreRead, restoreFail, restored]
    repeat' split
    all_goals exact .inl rfl
  | register | deactivate | token | wake => exact .inl rfl

/-! ## Waiting calls -/

/-- A call that enters was stamped. -/
theorem enters_stamped (h : t ∈ s.enters cfg e) :
    e = .enqueue t ∧ ∃ call g, s.calls.lookup t = some call ∧ call.stage = .stamped g ∧
      (s.step cfg e).calls = s.calls.insert t { call with stage := .waiting } := by
  cases e with
  | enqueue t' =>
    simp only [enters] at h
    cases hcall : s.calls.lookup t' with
    | none => simp [hcall] at h
    | some call =>
      cases hstage : call.stage with
      | allocated | waiting => simp [hcall, hstage] at h
      | stamped g =>
        simp only [hcall, hstage, Option.map_some] at h
        by_cases hfull : s.pc = .done ∨ s.commands.length ≥ cfg.capacity.toNat
        · rw [if_pos hfull] at h
          cases h
        · rw [if_neg hfull] at h
          obtain rfl := List.mem_singleton.1 h
          refine ⟨rfl, call, g, hcall, hstage, ?_⟩
          simp only [step, enqueue, hcall, hstage, if_neg hfull]
  | _ => cases h

/-- A call ends or stays as it is. -/
theorem lookup_endCall {t' : Ticket} {call : Call}
    (h : (s.calls.erase t').lookup t = some call) : s.calls.lookup t = some call := by
  obtain rfl | hne := eq_or_ne t t'
  · rw [AList.lookup_erase] at h
    cases h
  · rwa [AList.lookup_erase_ne hne] at h

theorem lookup_dropGuard {t' : Ticket} {call call' : Call}
    (h : (s.dropGuard t' call').calls.lookup t = some call) : s.calls.lookup t = some call := by
  unfold dropGuard at h
  split at h <;> exact lookup_endCall h

/-- **A call waits if its command entered, now or before.** -/
theorem waits_step (hb : Base s) {call : Call}
    (hcall : (s.step cfg e).calls.lookup t = some call) :
    call.stage = .waiting ↔
      t ∈ s.enters cfg e ∨ ∃ old, s.calls.lookup t = some old ∧ old.stage = .waiting := by
  -- a call the step leaves as it is, in a step that sends nothing for it
  have hold : s.calls.lookup t = some call → t ∉ s.enters cfg e → (call.stage = .waiting ↔
      t ∈ s.enters cfg e ∨ ∃ old, s.calls.lookup t = some old ∧ old.stage = .waiting) := by
    intro h hnot
    constructor
    · exact fun hst => .inr ⟨call, h, hst⟩
    · rintro (hin | ⟨old, hlookup, hst⟩)
      · exact absurd hin hnot
      · rwa [Option.some.inj (h.symm.trans hlookup)]
  -- a call whose stage was set
  have hset : ∀ {t' : Ticket} {old : Call} (stage : Stage), s.calls.lookup t' = some old →
      (stage = .waiting ↔ t' ∈ s.enters cfg e ∨ old.stage = .waiting) →
      (t ≠ t' → t ∉ s.enters cfg e) →
      (s.step cfg e).calls = s.calls.insert t' { old with stage := stage } →
      (call.stage = .waiting ↔
        t ∈ s.enters cfg e ∨ ∃ old, s.calls.lookup t = some old ∧ old.stage = .waiting) := by
    intro t' old stage hlookup hstage hother heq
    rw [heq] at hcall
    obtain rfl | hne := eq_or_ne t t'
    · rw [AList.lookup_insert] at hcall
      cases hcall
      simp [hstage, hlookup]
    · rw [AList.lookup_insert_ne hne] at hcall
      exact hold hcall (hother hne)
  cases e with
  | allocate kind messageType payload =>
    obtain rfl | hne := eq_or_ne t s.nextTicket
    · -- a new call has a ticket of its own
      have hnone : s.calls.lookup s.nextTicket = none := by
        cases hlookup : s.calls.lookup s.nextTicket with
        | none => rfl
        | some old =>
          obtain ⟨epoch, hissued⟩ := hb.tickets.call _ old hlookup
          rw [hb.ids.issued_next] at hissued
          cases hissued
      simp only [step, allocate] at hcall
      split at hcall
      · rw [hnone] at hcall
        cases hcall
      · rw [AList.lookup_insert] at hcall
        cases hcall
        simp [enters, hnone]
    · refine hold ?_ (by simp [enters])
      simp only [step, allocate] at hcall
      split at hcall
      · exact hcall
      · rwa [AList.lookup_insert_ne hne] at hcall
  | stamp t' =>
    cases hlookup : s.calls.lookup t' with
    | none =>
      have hstay : s.step cfg (.stamp t') = s := by simp only [step, stamp, hlookup]
      exact hold (hstay ▸ hcall) (by simp [enters])
    | some old =>
      cases hstage : old.stage with
      | allocated =>
        refine hset (.stamped s.shared.generation) hlookup (by simp [enters, hstage])
          (by simp [enters]) ?_
        simp only [step, stamp, hlookup, hstage]
      | stamped | waiting =>
        have hstay : s.step cfg (.stamp t') = s := by simp only [step, stamp, hlookup, hstage]
        exact hold (hstay ▸ hcall) (by simp [enters])
  | enqueue t' =>
    by_cases hin : t' ∈ s.enters cfg (.enqueue t')
    · obtain ⟨-, old, g, hlookup, -, hcalls⟩ := enters_stamped hin
      refine hset .waiting hlookup (by simp [hin]) (fun hne hin' => ?_) hcalls
      have heq := (enters_stamped hin').1
      cases heq
      exact hne rfl
    · have hnot : t ∉ s.enters cfg (.enqueue t') := by
        intro hin'
        have heq := (enters_stamped hin').1
        cases heq
        exact hin hin'
      refine hold ?_ hnot
      -- the channel took no command, or there was none to send
      cases hlookup : s.calls.lookup t' with
      | none =>
        simp only [step, enqueue, hlookup] at hcall
        exact hcall
      | some old =>
        cases hstage : old.stage with
        | allocated | waiting =>
          simp only [step, enqueue, hlookup, hstage] at hcall
          exact hcall
        | stamped g =>
          by_cases hfull : s.pc = .done ∨ s.commands.length ≥ cfg.capacity.toNat
          · simp only [step, enqueue, hlookup, hstage, if_pos hfull] at hcall
            exact lookup_endCall hcall
          · simp [enters, hlookup, hstage, if_neg hfull] at hin
  | resume t' =>
    refine hold ?_ (by simp [enters])
    simp only [step, resume] at hcall
    split at hcall
    · exact lookup_endCall hcall
    · exact lookup_dropGuard hcall
    · exact hcall
  | abandon t' =>
    refine hold ?_ (by simp [enters])
    simp only [step, abandon] at hcall
    split at hcall
    · exact lookup_dropGuard hcall
    · exact hcall
  | _ =>
    rw [calls_step rfl] at hcall
    exact hold hcall (by simp [enters])

/-! ## The channel of a task that has returned -/

/-- When `supervise` returns, nothing is left in the channel. -/
theorem returned_step (hpc : (s.step cfg e).pc = .done) :
    s.pc = .done ∨ (s.step cfg e).commands = [] := by
  cases e with
  | advance =>
    simp only [step, advance] at hpc
    split at hpc <;> exact .inl (supStep_done (by simp) (by simp) hpc)
  | receive =>
    simp only [step, receive] at hpc ⊢
    split at hpc
    · rename_i c cs hrecv hcs
      cases c with
      | close t => exact .inr rfl
      | connect t => exact .inl (supStep_done (by simp) (by simp) hpc)
      | request | send => exact .inl hpc
    · exact .inl hpc
  | command written =>
    simp only [step, command, turn_eq] at hpc
    split at hpc
    · rename_i c cs hsession hcs
      cases c with
      | connect t =>
        have hdone := supStep_done (by simp) (by simp) hpc
        exact absurd hdone (afterTurn_done hsession _)
      | close t => cases (step_close cfg hsession t).symm.trans hpc
      | request | send => exact absurd hpc (afterTurn_done hsession _)
    · exact .inl hpc
  | cancel =>
    simp only [step, cancel, turn_eq] at hpc
    split at hpc
    · rename_i hsession hcs
      exact absurd hpc (afterTurn_done hsession _)
    · exact .inl hpc
  | inbound frame answers written =>
    simp only [step, inbound, turn_eq] at hpc
    split at hpc
    · rename_i hsession
      have htask : (s.read frame answers).task = s.task := by
        unfold read
        split <;> rfl
      rw [htask] at hpc
      exact absurd hpc (afterTurn_done hsession _)
    · exact .inl hpc
  | readError =>
    simp only [step, readError, turn_eq] at hpc
    split at hpc
    · rename_i hsession
      exact absurd hpc (afterTurn_done hsession _)
    · exact .inl hpc
  | hangup =>
    simp only [step, hangup, turn_eq] at hpc ⊢
    split
    · rename_i hcs
      exact .inr hcs
    · rename_i hcs
      exact .inr hcs
    · rename_i hlive hidle
      split at hpc
      · rename_i hsession hcs
        exact absurd hcs (hlive hsession)
      · rename_i hrecv hcs
        exact absurd hcs (hidle hrecv)
      · exact .inl hpc
  | token | wake => exact .inl (supStep_done (by simp) (by simp) hpc)
  | requestClose | dial result | auth answer | restored =>
    simp only [step, requestClose, dial, auth, restored] at hpc
    repeat' split at hpc
    all_goals first
      | exact .inl hpc
      | exact .inl (supStep_done (by simp) (by simp) hpc)
  | allocate kind messageType payload =>
    simp only [step, allocate] at hpc
    split at hpc <;> exact .inl hpc
  | stamp t | enqueue t | resume t | abandon t | connect | close | restoreNext cell written
  | restoreRead frame answers | restoreFail =>
    simp only [step, stamp, enqueue, resume, abandon, dropGuard, push, restoreNext, restoreRead,
      restoreFail] at hpc
    repeat' split at hpc
    all_goals exact .inl hpc
  | register | deactivate => exact .inl hpc

/-- A closed channel takes no command. -/
theorem closed_step (hpc : s.pc = .done) : (s.step cfg e).commands = s.commands := by
  cases e with
  | stamp | enqueue | resume | abandon | connect | close | allocate | requestClose | advance
  | receive | hangup | dial | auth | restoreNext | restoreRead | restoreFail | restored | command
  | cancel | inbound | readError =>
    simp only [step, stamp, enqueue, resume, abandon, dropGuard, push, allocate, requestClose,
      advance, receive, hangup, dial, auth, restoreNext, restoreRead, restoreFail, restored,
      command, cancel, inbound, readError, hpc, true_or, if_true]
    repeat' split
    all_goals rfl
  | token | wake | register | deactivate => rfl

theorem drained_step (h : s.pc = .done → s.commands = []) (hpc : (s.step cfg e).pc = .done) :
    (s.step cfg e).commands = [] := by
  rcases returned_step hpc with hdone | hempty
  · exact (closed_step hdone).trans (h hdone)
  · exact hempty

/-! ## Runs -/

/-- What a run keeps of its callers, of which `entered` sent their commands. -/
structure Conserved (entered : List Ticket) (s : Conn) : Prop where
  numbered : Numbered s
  idle : s.pc ≠ .session → s.loop.waiters = []
  control : ∀ c ∈ s.commands, c.ticket? = none → s.issued c.response = none
  fresh : ∀ t, s.nextTicket ≤ t → s.places t = 0
  issued : ∀ t ∈ entered, (s.issued t).isSome = true
  nodup : entered.Nodup
  waits : ∀ t call, s.calls.lookup t = some call → (call.stage = .waiting ↔ t ∈ entered)
  places : ∀ t, (s.issued t).isSome = true → s.places t = entered.count t
  drained : s.pc = .done → s.commands = []

theorem conserved_new (cfg : Config) : Conserved [] (.new cfg) where
  numbered := numbered_new cfg
  idle := by simp [Conn.new, Loop.new, Loop.waiters]
  control := by simp [Conn.new]
  fresh := by simp [Conn.new, Conn.places, queuedCalls, Loop.new, Loop.waiters]
  issued := by simp
  nodup := List.nodup_nil
  waits := by simp [Conn.new]
  places := by simp [Conn.new]
  drained := fun _ => rfl

/-- **A step keeps every caller in its place**, with those that enter. -/
theorem conserved_step {entered : List Ticket} (h : Conserved entered s) :
    Conserved (entered ++ s.enters cfg e) (s.step cfg e) := by
  have hb := h.numbered.base
  have hn := hb.negotiated
  have hb' : Base (s.step cfg e) := base_step s e hb
  have hnext : s.nextTicket ≤ (s.step cfg e).nextTicket := (counters_step cfg s e).1
  obtain ⟨control, hcontrol, hplaces⟩ : ∃ control : List Ticket,
      (∀ t ∈ control, ∃ c ∈ s.commands, c.ticket? = none ∧ c.response = t) ∧
        ∀ t, (s.step cfg e).places t =
          s.places t + (s.enters cfg e).count t + control.count t :=
    places_step hn h.idle
  -- who enters was issued, and did not enter before
  have henters : ∀ t ∈ s.enters cfg e, (s.issued t).isSome = true ∧ t ∉ entered := by
    intro t ht
    obtain ⟨-, call, g, hcall, hstage, -⟩ := enters_stamped ht
    obtain ⟨epoch, hissued⟩ := hb.tickets.call t call hcall
    refine ⟨by simp [hissued], fun hin => ?_⟩
    have hwaiting := (h.waits t call hcall).2 hin
    rw [hstage] at hwaiting
    cases hwaiting
  have hone : (s.enters cfg e).Nodup := by
    unfold enters
    repeat' split
    all_goals simp
  have hold : ∀ t, (s.issued t).isSome = true → t < s.nextTicket := by
    intro t ht
    obtain ⟨p, hp⟩ := Option.isSome_iff_exists.1 ht
    exact (hb.ids.bound t p.1 p.2 hp).1
  have hkept : ∀ t, t ≠ s.nextTicket → (s.step cfg e).issued t = s.issued t := by
    intro t hne
    rcases issued_step cfg s e with heq | ⟨-, -, p, heq⟩
    · rw [heq]
    · rw [heq, Function.update_of_ne hne]
  have hcount : ∀ t, t ∈ control → t < s.nextTicket ∧ s.issued t = none := by
    intro t ht
    obtain ⟨c, hc, hnone, rfl⟩ := hcontrol t ht
    exact ⟨h.numbered.commands c hc, h.control c hc hnone⟩
  refine ⟨numbered_step cfg s e h.numbered, fun hpc => idle_step hn h.idle hpc, fun c hc hnone => ?_,
    fun t ht => ?_, fun t ht => ?_, ?_, fun t call hcall => ?_, fun t ht => ?_, drained_step h.drained⟩
  · rcases pushed_step hc with hc | ⟨hresponse, -⟩ | ⟨call, g, -, -, heq⟩
    · have hlt := h.numbered.commands c hc
      rw [hkept _ hlt.ne, h.control c hc hnone]
    · rcases issued_step cfg s e with heq | ⟨hcommands, -⟩
      · rw [heq, hresponse, hb.ids.issued_next]
      · have hlt := h.numbered.commands c (hcommands ▸ hc)
        rw [hresponse] at hlt
        exact absurd hlt (Nat.lt_irrefl _)
    · rw [heq, commandOf] at hnone
      split at hnone <;> cases hnone
  · have hge := hnext.trans ht
    have hnot : t ∉ s.enters cfg e := fun hin =>
      absurd (hold t (henters t hin).1) (Nat.not_lt.2 hge)
    have hnot' : t ∉ control := fun hin => absurd (hcount t hin).1 (Nat.not_lt.2 hge)
    rw [hplaces, h.fresh t hge, List.count_eq_zero_of_not_mem hnot,
      List.count_eq_zero_of_not_mem hnot']
  · have hissued : (s.issued t).isSome = true := by
      rcases List.mem_append.1 ht with ht | ht
      · exact h.issued t ht
      · exact (henters t ht).1
    rwa [hkept t (hold t hissued).ne]
  · refine List.nodup_append.2 ⟨h.nodup, hone, fun t ht t' ht' heq => ?_⟩
    exact (henters t' ht').2 (heq ▸ ht)
  · rw [waits_step hb hcall, List.mem_append, or_comm]
    refine or_congr_left ⟨?_, fun hin => ?_⟩
    · rintro ⟨old, hlookup, hst⟩
      exact (h.waits t old hlookup).1 hst
    · rcases called_lookup hcall with hlookup | ⟨rfl, -⟩ | ⟨old, stage, hlookup, -⟩
      · exact ⟨call, hlookup, (h.waits t call hlookup).2 hin⟩
      · exact absurd (hold _ (h.issued _ hin)) (Nat.lt_irrefl _)
      · exact ⟨old, hlookup, (h.waits t old hlookup).2 hin⟩
  · rw [hplaces, List.count_append]
    obtain rfl | hne := eq_or_ne t s.nextTicket
    · -- nothing has the next ticket
      have hnot : s.nextTicket ∉ entered := fun hin =>
        absurd (hold _ (h.issued _ hin)) (Nat.lt_irrefl _)
      have hnot' : s.nextTicket ∉ control := fun hin => absurd (hcount _ hin).1 (Nat.lt_irrefl _)
      rw [h.fresh _ le_rfl, List.count_eq_zero_of_not_mem hnot, List.count_eq_zero_of_not_mem hnot']
      omega
    · rw [hkept t hne] at ht
      have hnot : t ∉ control := fun hin => by
        rw [(hcount t hin).2] at ht
        cases ht
      rw [h.places t ht, List.count_eq_zero_of_not_mem hnot]
      omega

/-- **No caller is lost.** In every run each call has one place if its command entered
the channel: in the channel, in a slot, or settled; and none if it did not. The calls
that wait are among those that entered, outside a session loop the slots are empty, and
once `supervise` has returned the channel is. -/
theorem calls_conserved (cfg : Config) (es : List Event) :
    (entered cfg es).Nodup ∧
      (∀ t, ((run (Conn.step cfg) (.new cfg) es).issued t).isSome = true →
        (run (Conn.step cfg) (.new cfg) es).places t = if t ∈ entered cfg es then 1 else 0) ∧
      (∀ t call, (run (Conn.step cfg) (.new cfg) es).calls.lookup t = some call →
        (call.stage = .waiting ↔ t ∈ entered cfg es)) ∧
      ((run (Conn.step cfg) (.new cfg) es).pc ≠ .session →
        (run (Conn.step cfg) (.new cfg) es).loop.waiters = []) ∧
      ((run (Conn.step cfg) (.new cfg) es).pc = .done →
        (run (Conn.step cfg) (.new cfg) es).commands = []) := by
  have h : Conserved (entered cfg es) (run (Conn.step cfg) (.new cfg) es) :=
    outputs_inv (fun _ _ _ h => conserved_step h) (conserved_new cfg) es
  refine ⟨h.nodup, fun t ht => ?_, h.waits, h.idle, h.drained⟩
  rw [h.places t ht]
  split
  · rename_i hin
    exact List.count_eq_one_of_mem h.nodup hin
  · rename_i hnot
    exact List.count_eq_zero_of_not_mem hnot

/-! ## Order -/

/-- The frames written and the calls in the channel, in the order of entry. -/
theorem ordered_step {entered : List Ticket} (hn : s.negotiated)
    (h : (s.written ++ s.queuedCalls).Sublist entered) :
    ((s.step cfg e).written ++ (s.step cfg e).queuedCalls).Sublist (entered ++ s.enters cfg e) := by
  have hp := passed_step cfg s e hn
  generalize s.step cfg e = s' at hp
  -- a command that leaves the channel unwritten
  have hdrop : ∀ {c : Command} {cs : List Command}, s.commands = c :: cs →
      s'.commands = cs → s'.written = s.written →
      (s'.written ++ s'.queuedCalls).Sublist entered := by
    intro c cs hcs hcommands hwritten
    have hsub : cs.Sublist (c :: cs) := List.sublist_cons_self c cs
    simp only [queuedCalls, hcs, hcommands, hwritten] at h ⊢
    exact ((hsub.filterMap _).append_left s.written).trans h
  cases hp with
  | kept hcommands _ _ hwritten _ henters | began _ hcommands _ _ hwritten henters
  | turned _ _ hcommands _ _ hwritten _ henters =>
    simp only [queuedCalls, hcommands, hwritten, henters, List.append_nil] at h ⊢
    exact h
  | @joined c hcommands _ _ hwritten _ henters =>
    have hc : [c].filterMap Command.ticket? = c.ticket?.toList := by
      cases hc : c.ticket? <;> simp [hc]
    simp only [queuedCalls, hcommands, hwritten, henters, List.filterMap_append, hc,
      ← List.append_assoc] at h ⊢
    exact h.append (List.Sublist.refl _)
  | received _ hcs hcommands _ _ hwritten henters =>
    rw [henters, List.append_nil]
    exact hdrop hcs hcommands hwritten
  | shut _ hcs hcommands _ _ hwritten henters =>
    -- all that was queued goes
    simp only [queuedCalls, hcommands, hwritten, henters, List.filterMap_nil, List.append_nil]
    exact (List.sublist_append_left _ _).trans h
  | @served c cs written _ hcs hcommands _ _ hwritten _ henters =>
    rw [henters, List.append_nil]
    rcases hwritten with hwritten | ⟨t, hc, hwritten⟩
    · exact hdrop hcs hcommands hwritten
    · -- the head of the channel is written
      simp only [queuedCalls, hcs, hcommands, hwritten, List.filterMap_cons, hc, List.append_assoc,
        List.singleton_append] at h ⊢
      exact h

/-- **Frames leave in the order of the channel.** In every run, over all its sessions, the
calls whose frames were written, and after them those in the channel, are in order part
of the calls that entered it; so no frame is written twice. -/
theorem writes_in_order (cfg : Config) (es : List Event) :
    ((run (Conn.step cfg) (.new cfg) es).written ++
        (run (Conn.step cfg) (.new cfg) es).queuedCalls).Sublist (entered cfg es) ∧
      (run (Conn.step cfg) (.new cfg) es).written.Nodup := by
  have hI : ∀ entered s e, Conserved entered s ∧ (s.written ++ s.queuedCalls).Sublist entered →
      Conserved (entered ++ s.enters cfg e) (s.step cfg e) ∧
        ((s.step cfg e).written ++ (s.step cfg e).queuedCalls).Sublist
          (entered ++ s.enters cfg e) := fun _ _ _ h =>
    ⟨conserved_step h.1, ordered_step h.1.numbered.base.negotiated h.2⟩
  have h := outputs_inv hI ⟨conserved_new cfg, List.nil_sublist _⟩ es
  exact ⟨h.2, (h.2.nodup h.1.nodup).of_append_left⟩

end Conn

end Fitz

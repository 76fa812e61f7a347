import Fitz.Proof.Lifecycle

/-!
# Closed for good

`Client::close` waits a bounded time for the supervisor and then writes `Closed`;
`Client::connect` is let in by that same value. `closed_absorbing`: if no connect
call is under way and every supervisor task is quiet when a close returns, then
in every later run the watch says `Closed`, every connect returns `Closed` and
nothing is spawned. A task is quiet when all it can still publish is `Closed`; one
that awaits a token, a handshake or its registrations is not.
-/

namespace Fitz

open Machine

/-! ## The condition and the property -/

/-- All the task can still publish is `Closed`. -/
def Sup.quiet (s : Sup) : Bool :=
  match s.pc with
  | .recv | .closing _ | .done => true
  | .checking | .sleeping | .opened => s.closeRequested
  | .failed error => error.isAuthFailure
  | _ => false

/-- The task is quiet and no `Connect` is queued for it. -/
def Spawned.quiet (c : Spawned) : Bool := c.sup.quiet && !c.commands.any (·.isConnect)

/-- No `Client::connect` call is under way, and every supervisor is quiet. -/
def Client.quiet (s : Client) : Bool :=
  s.calls.entries.all (fun e => !e.2.connecting) && s.connections.all (·.quiet)

/-- Nothing has happened since `s₀`, and a connect is refused. -/
structure StaysClosed (policy : ReconnectPolicy) (s₀ s : Client) : Prop where
  state : s.state = .closed
  spawned : s.connections.length = s₀.connections.length
  returned : ∃ new, s.returned = s₀.returned ++ new ∧ ∀ p ∈ new, p.2 = .error .closed
  refused : (s.step policy .connect).returned = s.returned ++ [(s.nextTicket, .error .closed)]

/-! ## Quiet supervisors -/

variable {policy : ReconnectPolicy}

/-- A quiet task that receives no `Connect` stays quiet and publishes `Closed` only. -/
theorem Sup.quiet_step (policy : ReconnectPolicy) {s : Sup} (h : s.quiet = true) {e : SupEvent}
    (he : ∀ t, e ≠ .connect t) :
    (s.step policy e).1.quiet = true ∧
      ∀ state, .publish state ∈ (s.step policy e).2 → state = .closed := by
  obtain ⟨pc, n, i, c⟩ := s
  have hinitial : ∀ (s : Sup) r state, Act.publish state ∉ s.replyInitial r := by
    intro s r state
    unfold Sup.replyInitial
    split <;> simp
  cases pc with
  | recv =>
    cases e with
    | connect t => exact absurd rfl (he t)
    | _ => simp [Sup.step, Sup.quiet, Sup.goto, Sup.advance]
  | done =>
    cases e <;> simp [Sup.step, Sup.quiet, Sup.advance]
  | closing t =>
    cases e <;> simp [Sup.step, Sup.quiet, Sup.advance, Sup.leave]
  | checking | opened =>
    have hc : c = true := h
    subst hc
    cases e <;> simp [Sup.step, Sup.quiet, Sup.advance, Sup.leave]
  | sleeping =>
    have hc : c = true := h
    subst hc
    cases e <;> simp [Sup.step, Sup.quiet, Sup.advance, Sup.goto]
  | failed error =>
    have hauth : error.isAuthFailure = true := h
    cases e with
    | advance =>
      -- an authentication failure is the one that publishes `Closed`
      cases error with
      | authentication message | authFailed message =>
        refine ⟨rfl, fun state hmem => ?_⟩
        simp only [Sup.step, Sup.advance, Sup.onOpenError, FitzError.isAuthFailure, if_true,
          Sup.leave, List.mem_cons, Act.publish.injEq] at hmem
        rcases hmem with hmem | hmem
        · exact hmem
        · exact absurd hmem (hinitial _ _ state)
      | _ => simp [FitzError.isAuthFailure] at hauth
    | _ => simpa [Sup.step, Sup.quiet] using hauth
  | _ => simp [Sup.quiet] at h

/-! ## After the close -/

/-- What every step keeps after a close that found the client quiet. -/
structure ClosedInv (s₀ s : Client) : Prop where
  state : s.state = .closed
  calls : ∀ t pc, s.calls.lookup t = some pc → pc.connecting = false
  conns : ∀ c ∈ s.connections, c.quiet = true
  spawned : s.connections.length = s₀.connections.length
  returned : ∃ new, s.returned = s₀.returned ++ new ∧ ∀ p ∈ new, p.2 = .error .closed

/-- Acts that publish nothing but `Closed` leave a closed watch. -/
theorem observe_closed (s : Client) (acts : List Act) (hs : s.state = .closed)
    (h : ∀ state, .publish state ∈ acts → state = .closed) :
    (s.observe acts).state = .closed ∧ (s.observe acts).returned = s.returned := by
  induction acts generalizing s with
  | nil => exact ⟨hs, rfl⟩
  | cons a acts ih =>
    have hacts : ∀ state, .publish state ∈ acts → state = .closed :=
      fun state hmem => h state (List.mem_cons_of_mem _ hmem)
    cases a with
    | publish state => exact ih (s.write .supervisor state) (h state (by simp)) hacts
    | reply t r => exact ih { s with answers := s.answers ++ [(t, r)] } hs hacts
    | call | openSession | lost | sleep | exhausted => exact ih s hs hacts

namespace ClosedInv

variable {s₀ s : Client}

/-- A step that leaves the watch, the connections and the finished calls. -/
theorem frame {s' : Client} (h : ClosedInv s₀ s) (hstate : s'.state = s.state)
    (hconns : s'.connections = s.connections) (hret : s'.returned = s.returned)
    (hcalls : ∀ t pc, s'.calls.lookup t = some pc → pc.connecting = false) : ClosedInv s₀ s' := by
  refine ⟨hstate.trans h.state, hcalls, ?_, ?_, ?_⟩
  · rw [hconns]
    exact h.conns
  · rw [hconns]
    exact h.spawned
  · rw [hret]
    exact h.returned

theorem setCall (h : ClosedInv s₀ s) (t : Ticket) {pc : CallPc} (hpc : pc.connecting = false) :
    ClosedInv s₀ (s.setCall t pc) := by
  refine h.frame rfl rfl rfl fun t' pc' hl => ?_
  by_cases heq : t' = t
  · subst heq
    rw [Client.setCall, AList.lookup_insert] at hl
    cases hl
    exact hpc
  · rw [Client.setCall, AList.lookup_insert_ne heq] at hl
    exact h.calls t' pc' hl

theorem endCall (h : ClosedInv s₀ s) (t : Ticket) : ClosedInv s₀ (s.endCall t) := by
  refine h.frame rfl rfl rfl fun t' pc' hl => ?_
  by_cases heq : t' = t
  · subst heq
    rw [Client.endCall, AList.lookup_erase] at hl
    cases hl
  · rw [Client.endCall, AList.lookup_erase_ne heq] at hl
    exact h.calls t' pc' hl

/-- A connection is replaced by a quiet one. -/
theorem setConnection (h : ClosedInv s₀ s) {k : ℕ} {c : Spawned} (hc : c.quiet = true) :
    ClosedInv s₀ { s with connections := s.connections.set k c } := by
  refine ⟨h.state, h.calls, fun c' hmem => ?_, ?_, h.returned⟩
  · rcases List.mem_or_eq_of_mem_set hmem with hmem | rfl
    · exact h.conns c' hmem
    · exact hc
  · rw [List.length_set]
    exact h.spawned

theorem runTask (h : ClosedInv s₀ s) (k : ℕ) {e : SupEvent} (he : ∀ t, e ≠ .connect t) :
    ClosedInv s₀ (s.runTask policy k e) := by
  unfold Client.runTask
  split
  · exact h
  · rename_i c hc
    have hquiet := h.conns c (List.mem_of_getElem? hc)
    obtain ⟨hsup, hcommands⟩ := Bool.and_eq_true_iff.1 hquiet
    obtain ⟨hsup', hacts⟩ := Sup.quiet_step policy hsup he
    have hset := h.setConnection (k := k) (c := { c with sup := (c.sup.step policy e).1 })
      (Bool.and_eq_true_iff.2 ⟨hsup', hcommands⟩)
    have hobs := observe_closed _ (c.sup.step policy e).2 hset.state hacts
    obtain ⟨-, hconns, hcalls, -⟩ := observe_frame
      { s with connections := s.connections.set k { c with sup := (c.sup.step policy e).1 } }
      (c.sup.step policy e).2
    refine hset.frame (hobs.1.trans hset.state.symm) hconns hobs.2 fun t pc hl => ?_
    rw [hcalls] at hl
    exact h.calls t pc hl

theorem receive (h : ClosedInv s₀ s) (k : ℕ) : ClosedInv s₀ (s.receive policy k) := by
  unfold Client.receive
  split
  · exact h
  · rename_i c hc
    split
    · rename_i command commands _ hcmd
      obtain ⟨hsup, hcommands⟩ := Bool.and_eq_true_iff.1 (h.conns c (List.mem_of_getElem? hc))
      rw [hcmd, List.any_cons, Bool.not_or, Bool.and_eq_true] at hcommands
      have hpop := h.setConnection (k := k) (c := { c with commands := commands })
        (Bool.and_eq_true_iff.2 ⟨hsup, hcommands.2⟩)
      cases command with
      | connect t => simp [Control.isConnect] at hcommands
      | close t => exact hpop.runTask k (by simp)
    · exact h

theorem send (h : ClosedInv s₀ s) (k : ℕ) (t : Ticket) : ClosedInv s₀ (s.send k (.close t)) := by
  refine ⟨h.state, h.calls, fun c hmem => ?_, ?_, h.returned⟩
  · obtain ⟨j, hj⟩ := List.mem_iff_getElem?.1 hmem
    simp only [Client.send, List.getElem?_modify] at hj
    obtain ⟨c0, hc0, rfl⟩ := Option.map_eq_some_iff.1 hj
    have hquiet := h.conns c0 (List.mem_of_getElem? hc0)
    split
    · simpa [Spawned.quiet, Control.isConnect] using hquiet
    · exact hquiet
  · rw [Client.send, List.length_modify]
    exact h.spawned

theorem resume (h : ClosedInv s₀ s) (t : Ticket) : ClosedInv s₀ (s.resume policy t) := by
  unfold Client.resume
  split
  case h_6 k hl =>
    split
    · exact h.setCall t rfl
    · exact (h.runTask k (by simp)).setCall t rfl
  case h_7 k hl => exact (h.send k t).setCall t rfl
  case h_8 k hl =>
    split
    · exact h.setCall t rfl
    · exact h
  case h_9 hl =>
    have hwrite : ClosedInv s₀ (s.write .facade .closed) :=
      h.frame h.state.symm rfl rfl h.calls
    exact hwrite.endCall t
  case h_10 => exact h
  -- the calls of `connect`, of which none is left
  all_goals
    rename_i hl
    exact absurd (h.calls t _ hl) (by simp [CallPc.connecting])

/-- **Nothing opens a quiet closed client.** -/
theorem step (policy : ReconnectPolicy) (s : Client) (e : ClientEvent) (h : ClosedInv s₀ s) :
    ClosedInv s₀ (s.step policy e) := by
  cases e with
  | connect =>
    -- the gate of `connect` reads `Closed` and returns at once
    obtain ⟨new, hret, hnew⟩ := h.returned
    simp only [Client.step, h.state, if_true]
    refine ⟨rfl, h.calls, h.conns, h.spawned, new ++ [(s.nextTicket, .error .closed)], ?_, ?_⟩
    · simp [hret]
    · intro p hp
      rcases List.mem_append.1 hp with hp | hp
      · exact hnew p hp
      · rw [List.mem_singleton.1 hp]
  | close =>
    simp only [Client.step]
    split
    · have htaken : ClosedInv s₀ { s with
          nextTicket := s.nextTicket + 1, closeCalled := true, slot := none } :=
        h.frame rfl rfl rfl h.calls
      exact htaken.setCall _ rfl
    · have hcalled : ClosedInv s₀ { s with nextTicket := s.nextTicket + 1, closeCalled := true } :=
        h.frame rfl rfl rfl h.calls
      exact hcalled.setCall _ rfl
  | resume t => exact h.resume t
  | expire t =>
    simp only [Client.step, Client.expire]
    split
    case h_3 | h_4 => exact h.setCall t rfl
    case h_5 => exact h
    -- a `connect` under way would be a call of its own kind
    all_goals
      rename_i hl
      exact absurd (h.calls t _ hl) (by simp [CallPc.connecting])
  | abandon t => exact h.endCall t
  | receive k => exact h.receive k
  | hangup k =>
    simp only [Client.step]
    split
    · exact h.runTask k (by simp)
    · exact h
  | task k e =>
    simp only [Client.step]
    split
    · rename_i he
      refine h.runTask k fun t heq => ?_
      subst heq
      simp [Client.internal] at he
    · exact h

end ClosedInv

/-- **Closed is absorbing.** In every run in which a `Client::close` call is about
to return while no connect call is under way and every supervisor is quiet: after
it returned, in every later run, the watch says `Closed`, every connect returns
`Closed`, and no connection is spawned. -/
theorem closed_absorbing (policy : ReconnectPolicy) (es es' : List ClientEvent) (t : Ticket)
    (hcall : (run (Client.step policy) .new es).calls.lookup t = some .closed)
    (hquiet : (run (Client.step policy) .new es).quiet = true) :
    StaysClosed policy (run (Client.step policy) .new (es ++ [.resume t]))
      (run (Client.step policy) .new (es ++ .resume t :: es')) := by
  -- the history is cut where `close` returns
  have hsplit : run (Client.step policy) .new (es ++ .resume t :: es') =
      run (Client.step policy) (run (Client.step policy) .new (es ++ [.resume t])) es' := by
    rw [← run_append, List.append_assoc]
    rfl
  rw [hsplit]
  set s := run (Client.step policy) .new es with hs
  set s₀ := run (Client.step policy) .new (es ++ [.resume t]) with hs₀
  have hreturn : s₀ = (s.write .facade .closed).endCall t := by
    rw [hs₀, run_append, ← hs]
    simp [Client.step, Client.resume, hcall]
  obtain ⟨hcalls, hconns⟩ := Bool.and_eq_true_iff.1 hquiet
  -- the invariant starts there: that is what the condition is for
  have hstart : ClosedInv s₀ (s.write .facade .closed) := by
    refine ⟨rfl, fun t' pc hl => ?_, fun c hc => List.all_eq_true.1 hconns c hc, ?_, [], ?_, by simp⟩
    · have hmem := AList.mem_lookup_iff.1 hl
      simpa using List.all_eq_true.1 hcalls _ hmem
    · rw [hreturn]
      rfl
    · rw [hreturn, List.append_nil]
      rfl
  have hend : ClosedInv s₀ s₀ := by
    have h := hstart.endCall t
    rwa [← hreturn] at h
  have hinv := run_inv (ClosedInv.step policy) hend es'
  refine ⟨hinv.state, hinv.spawned, hinv.returned, ?_⟩
  simp [Client.step, hinv.state]

/-- A close that takes the connection, and the supervisor taking its command. -/
def closeCall (t : Ticket) : List ClientEvent :=
  [.close, .resume t, .resume t, .receive 0, .task 0 .advance, .resume t]

/-- A session that is closed in time, and a later connect. -/
theorem closed_absorbing_session :
    (run (Client.step ⟨true, 0⟩) .new (firstConnect ++ closeCall 1)).calls.lookup 1 = some .closed ∧
      StaysClosed ⟨true, 0⟩ (run (Client.step ⟨true, 0⟩) .new (firstConnect ++ closeCall 1 ++ [.resume 1]))
        (run (Client.step ⟨true, 0⟩) .new (firstConnect ++ closeCall 1 ++ .resume 1 :: [.connect])) :=
  ⟨by decide +kernel, closed_absorbing ⟨true, 0⟩ (firstConnect ++ closeCall 1) [.connect] 1
    (by decide +kernel) (by decide +kernel)⟩

/-- A connect whose token is awaited, and a close that gives up on it and returns. -/
def closedWhileOpening : List ClientEvent :=
  connectCall 0 ++ [.task 0 .advance, .task 0 .advance, .expire 0, .close, .resume 1, .resume 1,
    .expire 1, .resume 1]

/-- The token arrives after the close returned: the watch leaves `Closed`, and the
next connect spawns another connection. -/
theorem closed_reopens :
    (run (Client.step ⟨true, 0⟩) .new closedWhileOpening).state = .closed ∧
      (run (Client.step ⟨true, 0⟩) .new closedWhileOpening).calls.entries = [] ∧
      ¬ StaysClosed ⟨true, 0⟩ (run (Client.step ⟨true, 0⟩) .new closedWhileOpening)
        (run (Client.step ⟨true, 0⟩) .new (closedWhileOpening ++ [.task 0 (.token (.ok ()))])) ∧
      (run (Client.step ⟨true, 0⟩) .new (closedWhileOpening ++ [.task 0 (.token (.ok ())), .connect,
        .resume 2, .resume 2])).connections.length = 2 := by
  refine ⟨by decide +kernel, by decide +kernel, fun h => ?_, by decide +kernel⟩
  exact absurd h.state (by decide +kernel)

end Fitz

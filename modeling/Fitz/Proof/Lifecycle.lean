import Fitz.Model.Client
import Fitz.Proof.Moves

/-!
# The lifecycle watch

The facade and the supervisor write one watch. `state_matches_session`: while no
close was requested, the watch agrees with the supervisor at every point where
its task is suspended, except in a session loop after a `Client::connect` call
wrote `Connecting` over the `Authenticated` of that session.
-/

namespace Fitz

open Machine

/-- `Connecting` was written by the facade after the last `Authenticated` of the
supervisor. -/
def overwritten (writes : List (Writer × ConnectionState)) : Bool :=
  writes.foldl (fun b w => match w with
    | (.supervisor, .authenticated) => false
    | (.facade, .connecting) => true
    | _ => b) false

/-- The published state says `Authenticated` exactly when the task is suspended
in a session loop. -/
def StateMatches (s : Client) (c : Spawned) : Prop :=
  (c.sup.pc = .session → s.state = .authenticated) ∧
    (c.sup.pc ≠ .session → s.state ≠ .authenticated)

/-- What the watch holds, by program counter. -/
def WatchOk (state : ConnectionState) (ow : Bool) : Pc → Prop
  | .entering | .session => state = .authenticated ↔ ow = false
  | .lost | .retrying => True
  | .closing _ => False
  | _ => state ≠ .authenticated

def Control.isConnect : Control → Bool
  | .connect _ => true
  | .close _ => false

/-- A connection of a client nobody has closed. -/
structure ConnectionInv (s : Client) (c : Spawned) : Prop where
  open_ : c.sup.closeRequested = false
  commands : ∀ x ∈ c.commands, x.isConnect = true
  watch : WatchOk s.state (overwritten s.writes) c.sup.pc

/-- The invariant of a client nobody has closed: at most one connection, in the
slot. -/
structure LiveInv (s : Client) : Prop where
  shape : s.connections = [] ∧ s.slot = none ∨ ∃ c, s.connections = [c] ∧ s.slot = some 0
  calls : ∀ t pc, s.calls.lookup t = some pc → pc.connecting = true
  conns : ∀ c ∈ s.connections, ConnectionInv s c
  idle : s.connections = [] → s.state ≠ .authenticated

variable {policy : ReconnectPolicy}

section Observe

variable (s : Client)

@[simp] theorem observe_nil : s.observe [] = s := rfl

@[simp] theorem observe_publish (state : ConnectionState) (acts : List Act) :
    s.observe (.publish state :: acts) = (s.write .supervisor state).observe acts := rfl

@[simp] theorem observe_other {a : Act} {acts : List Act} (ha : ∀ state, a ≠ .publish state)
    (hr : ∀ t r, a ≠ .reply t r) : s.observe (a :: acts) = s.observe acts := by
  cases a <;> first | rfl | exact absurd rfl (ha _) | exact absurd rfl (hr _ _)

/-- What `observe` leaves of a client: everything but the watch and the answers. -/
theorem observe_frame (acts : List Act) :
    (s.observe acts).slot = s.slot ∧ (s.observe acts).connections = s.connections ∧
      (s.observe acts).calls = s.calls ∧ (s.observe acts).closeCalled = s.closeCalled := by
  induction acts generalizing s with
  | nil => exact ⟨rfl, rfl, rfl, rfl⟩
  | cons a acts ih => cases a <;> exact ih _

end Observe

theorem overwritten_concat (writes : List (Writer × ConnectionState)) (w : Writer)
    (state : ConnectionState) :
    overwritten (writes ++ [(w, state)]) = match w, state with
      | .supervisor, .authenticated => false
      | .facade, .connecting => true
      | _, _ => overwritten writes := by
  cases w <;> cases state <;> simp [overwritten]

/-- The watch after acts that only answer callers. -/
theorem observe_replyInitial (s : Client) (sup : Sup) (r : Result Unit) :
    (s.observe (sup.replyInitial r)).state = s.state ∧
      (s.observe (sup.replyInitial r)).writes = s.writes := by
  unfold Sup.replyInitial
  split <;> exact ⟨rfl, rfl⟩

/-- Events of a supervisor whose client nobody has closed. -/
def SupEvent.open_ : SupEvent → Bool
  | .close _ | .hangup | .requestClose => false
  | _ => true

/-- **One transition of the supervisor keeps the watch right.** -/
theorem move_watch {e : SupEvent} {sup sup' : Sup} {acts : List Act}
    (hm : Move policy e sup sup' acts) (he : e.open_ = true) (s : Client)
    (hc : sup.closeRequested = false) (hw : WatchOk s.state (overwritten s.writes) sup.pc) :
    sup'.closeRequested = false ∧
      WatchOk (s.observe acts).state (overwritten (s.observe acts).writes) sup'.pc := by
  cases hm with
  | stay => exact ⟨hc, hw⟩
  | requestClose | closeIdle t | hangupIdle | close t | hangup => simp [SupEvent.open_] at he
  | closedBefore | closedAfter => simp at hc
  | call t => exact ⟨hc, hw⟩
  | hello | restore | restored | resetIds => exact ⟨hc, hw⟩
  | enter => exact ⟨hc, hw⟩
  | fail error hpc =>
    refine ⟨hc, ?_⟩
    rcases hpc with rfl | rfl | rfl <;> exact hw
  | start | dial | connect => exact ⟨hc, by simp [WatchOk, Client.write]⟩
  | openSession => exact ⟨rfl, hw⟩
  -- the session is announced over what the watch said before
  | announce =>
    refine ⟨hc, ?_⟩
    simp only [observe_publish, (observe_replyInitial _ _ _).1, (observe_replyInitial _ _ _).2]
    simp [WatchOk, Client.write, overwritten_concat]
  | giveUp state r hst hwhy =>
    refine ⟨hc, ?_⟩
    simp only [observe_publish, (observe_replyInitial _ _ r).1]
    rcases hst with rfl | rfl <;> simp [WatchOk, Client.write]
  | retry | lose | bump => exact ⟨hc, trivial⟩
  | connected t => exact ⟨hc, hw⟩
  -- no session of an open client is being closed
  | closed t => exact absurd hw id
  | exhaust hmax hn =>
    refine ⟨hc, ?_⟩
    rw [observe_other _ (by simp) (by simp), observe_publish]
    simp only [(observe_replyInitial _ _ _).1]
    simp [WatchOk, Client.write]
  | sleep hn => exact ⟨hc, by simp [WatchOk, Client.write, Client.observe]⟩
  | wake => exact ⟨hc, hw⟩

/-! ## Steps of the client -/

/-- A step that leaves the connections, the slot and the watch. -/
theorem LiveInv.frame {s s' : Client} (h : LiveInv s) (hslot : s'.slot = s.slot)
    (hconns : s'.connections = s.connections) (hstate : s'.state = s.state)
    (hwrites : s'.writes = s.writes)
    (hcalls : ∀ t pc, s'.calls.lookup t = some pc → pc.connecting = true) : LiveInv s' := by
  refine ⟨?_, hcalls, fun c hc => ?_, fun hnil => ?_⟩
  · rw [hslot, hconns]
    exact h.shape
  · obtain ⟨h1, h2, h3⟩ := h.conns c (hconns ▸ hc)
    exact ⟨h1, h2, by rw [hstate, hwrites]; exact h3⟩
  · rw [hstate]
    exact h.idle (hconns ▸ hnil)

theorem lookup_insert_connecting {s : Client} (h : LiveInv s) (t : Ticket) {pc : CallPc}
    (hpc : pc.connecting = true) (t' : Ticket) (pc' : CallPc)
    (hl : (s.calls.insert t pc).lookup t' = some pc') : pc'.connecting = true := by
  by_cases heq : t' = t
  · subst heq
    rw [AList.lookup_insert] at hl
    cases hl
    exact hpc
  · rw [AList.lookup_insert_ne heq] at hl
    exact h.calls t' pc' hl

theorem lookup_erase_connecting {s : Client} (h : LiveInv s) (t t' : Ticket) (pc' : CallPc)
    (hl : (s.calls.erase t).lookup t' = some pc') : pc'.connecting = true := by
  by_cases heq : t' = t
  · subst heq
    simp [AList.lookup_erase] at hl
  · rw [AList.lookup_erase_ne heq] at hl
    exact h.calls t' pc' hl

theorem LiveInv.setCall {s : Client} (h : LiveInv s) (t : Ticket) {pc : CallPc}
    (hpc : pc.connecting = true) : LiveInv (s.setCall t pc) :=
  h.frame rfl rfl rfl rfl (lookup_insert_connecting h t hpc)

theorem LiveInv.return_ {s : Client} (h : LiveInv s) (t : Ticket) (r : Result Unit) :
    LiveInv (s.return_ t r) :=
  h.frame rfl rfl rfl rfl (lookup_erase_connecting h t)

/-- The facade announces a connection attempt. -/
theorem LiveInv.announce {s : Client} (h : LiveInv s) : LiveInv (s.write .facade .connecting) := by
  refine ⟨h.shape, h.calls, fun c hc => ?_, fun _ => by simp [Client.write]⟩
  obtain ⟨h1, h2, h3⟩ := h.conns c hc
  refine ⟨h1, h2, ?_⟩
  simp only [Client.write, overwritten_concat]
  revert h3
  cases c.sup.pc <;> simp [WatchOk]

theorem LiveInv.attach {s : Client} (h : LiveInv s) : LiveInv s.attach.1 := by
  unfold Client.attach
  rcases h.shape with ⟨hnil, hslot⟩ | ⟨c, hone, hslot⟩
  · rw [hslot]
    refine ⟨.inr ⟨⟨.new, []⟩, by simp [hnil], by simp [hnil]⟩, h.calls, ?_, ?_⟩
    · intro c hc
      simp only [hnil, List.nil_append, List.mem_singleton] at hc
      subst hc
      exact ⟨rfl, by simp, h.idle hnil⟩
    · simp
  · rw [hslot]
    exact h

theorem LiveInv.send {s : Client} (h : LiveInv s) (k : ℕ) (t : Ticket) :
    LiveInv (s.send k (.connect t)) := by
  -- the command is queued at the connection it is sent to
  have hmem : ∀ c ∈ (s.send k (.connect t)).connections, ConnectionInv s c := by
    intro c hc
    simp only [Client.send, List.mem_iff_getElem?, List.getElem?_modify] at hc
    obtain ⟨j, hj⟩ := hc
    obtain ⟨c0, hc0, rfl⟩ := Option.map_eq_some_iff.1 hj
    obtain ⟨h1, h2, h3⟩ := h.conns c0 (List.mem_of_getElem? hc0)
    split
    · refine ⟨h1, fun x hx => ?_, h3⟩
      rcases List.mem_append.1 hx with hx | hx
      · exact h2 x hx
      · rw [List.mem_singleton.1 hx]
        rfl
    · exact ⟨h1, h2, h3⟩
  refine ⟨?_, h.calls, fun c hc => ?_, fun hnil => ?_⟩
  · rcases h.shape with ⟨hnil, hslot⟩ | ⟨c, hone, hslot⟩
    · exact .inl ⟨by simp [Client.send, hnil], hslot⟩
    · refine .inr ?_
      cases k with
      | zero => exact ⟨⟨c.sup, c.commands ++ [.connect t]⟩, by simp [Client.send, hone], hslot⟩
      | succ k => exact ⟨c, by simp [Client.send, hone], hslot⟩
  · obtain ⟨h1, h2, h3⟩ := hmem c hc
    exact ⟨h1, h2, h3⟩
  · refine h.idle ?_
    have hlen := congrArg List.length hnil
    simpa [Client.send] using hlen

/-- A step of a supervisor, on an event a client nobody has closed can send. -/
theorem LiveInv.runTask {s : Client} (h : LiveInv s) (k : ℕ) {e : SupEvent}
    (he : e.open_ = true) : LiveInv (s.runTask policy k e) := by
  unfold Client.runTask
  split
  · exact h
  · rename_i c hc
    obtain ⟨h1, h2, h3⟩ := h.conns c (List.mem_of_getElem? hc)
    rcases h.shape with ⟨hnil, -⟩ | ⟨c', hone, hslot⟩
    · simp [hnil] at hc
    · -- there is one connection, so the task is its own
      have hk : k = 0 ∧ c' = c := by
        rw [hone] at hc
        cases k with
        | zero => simpa using hc
        | succ k => simp at hc
      obtain ⟨rfl, rfl⟩ := hk
      set s1 : Client :=
        { s with connections := s.connections.set 0 { c' with sup := (c'.sup.step policy e).1 } }
      obtain ⟨f1, f2, f3, -⟩ := observe_frame s1 (c'.sup.step policy e).2
      obtain ⟨hc', hw'⟩ := move_watch (step_move policy c'.sup e) he s1 h1 h3
      have hconns : (s1.observe (c'.sup.step policy e).2).connections =
          [{ c' with sup := (c'.sup.step policy e).1 }] := by
        rw [f2]
        simp [s1, hone]
      refine ⟨.inr ⟨_, hconns, f1.trans hslot⟩, ?_, ?_, ?_⟩
      · rw [f3]
        exact h.calls
      · intro c hmem
        rw [hconns, List.mem_singleton] at hmem
        subst hmem
        exact ⟨hc', h2, hw'⟩
      · rw [hconns]
        simp

theorem LiveInv.receive {s : Client} (h : LiveInv s) (k : ℕ) : LiveInv (s.receive policy k) := by
  unfold Client.receive
  split
  · exact h
  · rename_i c hc
    split
    · rename_i command commands _ hcmd
      obtain ⟨h1, h2, h3⟩ := h.conns c (List.mem_of_getElem? hc)
      have hcon : command.isConnect = true := h2 command (by simp [hcmd])
      -- the command leaves the channel first
      have hpop : LiveInv { s with
          connections := s.connections.set k { c with commands := commands } } := by
        rcases h.shape with ⟨hnil, -⟩ | ⟨c', hone, hslot⟩
        · simp [hnil] at hc
        · have hk : k = 0 := by
            rw [hone] at hc
            cases k with
            | zero => rfl
            | succ k => simp at hc
          subst hk
          refine ⟨.inr ⟨{ c with commands := commands }, by simp [hone], hslot⟩, h.calls, ?_,
            by simp [hone]⟩
          intro c'' hmem
          simp only [hone, List.set_cons_zero, List.mem_singleton] at hmem
          subst hmem
          exact ⟨h1, fun x hx => h2 x (by simp [hcmd, hx]), h3⟩
      refine hpop.runTask k ?_
      cases command with
      | connect t => rfl
      | close t => simp [Control.isConnect] at hcon
    · exact h

theorem LiveInv.resume {s : Client} (h : LiveInv s) (t : Ticket) :
    LiveInv (s.resume policy t) := by
  unfold Client.resume
  split
  · exact h.announce.setCall t rfl
  · exact h.attach.setCall t rfl
  · split
    · exact h.return_ t _
    · exact h.setCall t rfl
  · split
    · exact h.return_ t _
    · exact (h.send _ t).setCall t rfl
  · split
    · exact h.return_ t _
    · split
      · exact h
      · exact h.return_ t _
  all_goals first
    | exact h
    | rename_i hl
      exact absurd (h.calls t _ hl) (by simp [CallPc.connecting])

theorem LiveInv.expire {s : Client} (h : LiveInv s) (t : Ticket) : LiveInv (s.expire t) := by
  unfold Client.expire
  split
  · exact h.return_ t _
  · exact h.return_ t _
  · rename_i hl
    exact absurd (h.calls t _ hl) (by simp [CallPc.connecting])
  · rename_i hl
    exact absurd (h.calls t _ hl) (by simp [CallPc.connecting])
  · exact h

/-- The last sender of a live client's connection is not dropped. -/
theorem LiveInv.hangup {s : Client} (h : LiveInv s) (k : ℕ) (hk : s.slot ≠ some k) :
    s.runTask policy k .hangup = s := by
  rcases h.shape with ⟨hnil, -⟩ | ⟨c, hone, hslot⟩
  · simp [Client.runTask, hnil]
  · cases k with
    | zero => exact absurd hslot hk
    | succ k => simp [Client.runTask, hone]

section CloseCalled

variable (s : Client)

@[simp] theorem closeCalled_runTask (k : ℕ) (e : SupEvent) :
    (s.runTask policy k e).closeCalled = s.closeCalled := by
  unfold Client.runTask
  split
  · rfl
  · exact (observe_frame _ _).2.2.2

@[simp] theorem closeCalled_attach : s.attach.1.closeCalled = s.closeCalled := by
  unfold Client.attach
  split <;> rfl

@[simp] theorem closeCalled_setCall (t : Ticket) (pc : CallPc) :
    (s.setCall t pc).closeCalled = s.closeCalled := rfl

theorem closeCalled_resume (t : Ticket) : (s.resume policy t).closeCalled = s.closeCalled := by
  unfold Client.resume
  repeat' split
  all_goals first | rfl | simp

theorem closeCalled_receive (k : ℕ) : (s.receive policy k).closeCalled = s.closeCalled := by
  unfold Client.receive
  repeat' split
  all_goals first | rfl | simp

/-- Nothing undoes a close. -/
theorem closeCalled_step (e : ClientEvent) (h : (s.step policy e).closeCalled = false) :
    s.closeCalled = false := by
  cases e with
  | connect =>
    simp only [Client.step] at h
    split at h <;> exact h
  | close =>
    simp only [Client.step] at h
    split at h <;> simp at h
  | resume t => exact (closeCalled_resume s t).symm.trans h
  | expire t =>
    simp only [Client.step, Client.expire] at h
    split at h <;> exact h
  | abandon t => exact h
  | receive k => exact (closeCalled_receive s k).symm.trans h
  | hangup k =>
    simp only [Client.step] at h
    split at h
    · simpa using h
    · exact h
  | task k e =>
    simp only [Client.step] at h
    split at h
    · simpa using h
    · exact h

end CloseCalled

/-- **One step of the client.** While no close is requested the invariant is
kept. -/
theorem step_live (s : Client) (e : ClientEvent) (h : s.closeCalled = false → LiveInv s)
    (hclose : (s.step policy e).closeCalled = false) : LiveInv (s.step policy e) := by
  have hs := h (closeCalled_step s e hclose)
  cases e with
  | connect =>
    simp only [Client.step]
    split
    · exact hs.frame rfl rfl rfl rfl hs.calls
    · exact (hs.frame rfl rfl rfl rfl hs.calls :
        LiveInv { s with nextTicket := s.nextTicket + 1 }).setCall _ rfl
  | close =>
    simp only [Client.step] at hclose
    split at hclose <;> simp at hclose
  | resume t => exact hs.resume t
  | expire t => exact hs.expire t
  | abandon t => exact hs.frame rfl rfl rfl rfl (lookup_erase_connecting hs t)
  | receive k => exact hs.receive k
  | hangup k =>
    simp only [Client.step]
    split
    · rename_i hk
      -- a connection whose client holds it cannot be hung up on
      rw [hs.hangup k hk.1]
      exact hs
    · exact hs
  | task k e =>
    simp only [Client.step]
    split
    · rename_i he
      refine hs.runTask k ?_
      cases e <;> first | rfl | simp [Client.internal] at he
    · exact hs

theorem liveInv_new : LiveInv .new :=
  ⟨.inl ⟨rfl, rfl⟩, by simp [Client.new], by simp [Client.new], by simp [Client.new]⟩

/-- **The lifecycle watch.** In every run, at every point where no close was
requested and the supervisor task is suspended, the published state matches
where it is suspended, exactly when it is not in a session loop whose
`Authenticated` a `Client::connect` call has overwritten with `Connecting`. -/
theorem state_matches_session (policy : ReconnectPolicy) (es : List ClientEvent) (c : Spawned)
    (hopen : (run (Client.step policy) .new es).closeCalled = false)
    (hc : c ∈ (run (Client.step policy) .new es).connections)
    (hs : c.sup.pc.suspended = true) :
    StateMatches (run (Client.step policy) .new es) c ↔
      ¬(c.sup.pc = .session ∧ overwritten (run (Client.step policy) .new es).writes = true) := by
  have hinv : LiveInv (run (Client.step policy) .new es) :=
    run_inv (I := fun s : Client => s.closeCalled = false → LiveInv s)
      (fun s e h => step_live s e h) (fun _ => liveInv_new) es hopen
  have hw := (hinv.conns c hc).watch
  revert hw hs
  cases hpc : c.sup.pc <;> simp [WatchOk, StateMatches, Pc.suspended, hpc]

/-- A `Client::connect` call up to its `Connect` command, and the supervisor
taking it. -/
def connectCall (t : Ticket) : List ClientEvent :=
  [.connect, .resume t, .resume t, .resume t, .resume t, .receive 0]

/-- A first connect that succeeds, up to its return. -/
def firstConnect : List ClientEvent :=
  connectCall 0 ++ (.task 0 .advance :: openRun.map (.task 0)) ++ [.resume 0]

theorem state_matches_session_connected :
    StateMatches (run (Client.step ⟨true, 0⟩) .new firstConnect) ⟨⟨.session, 0, none, false⟩, []⟩ :=
  (state_matches_session ⟨true, 0⟩ firstConnect ⟨⟨.session, 0, none, false⟩, []⟩ (by decide +kernel)
    (by decide +kernel) rfl).2 (by decide +kernel)

/-- A second `connect` on the live session, up to its return. -/
def secondConnect : List ClientEvent := firstConnect ++ connectCall 1 ++ [.resume 1]

/-- The second `connect` returns `Ok`, no call is left, and the watch says
`Connecting` over a live session. -/
theorem connect_again_hides_session :
    ∃ s c, s = run (Client.step ⟨true, 0⟩) .new secondConnect ∧ (1, .ok ()) ∈ s.returned ∧
      s.calls.entries = [] ∧ s.closeCalled = false ∧ c ∈ s.connections ∧ c.sup.pc = .session ∧
      ¬ StateMatches s c := by
  refine ⟨_, ⟨⟨.session, 0, none, false⟩, []⟩, rfl, by decide +kernel, by decide +kernel,
    by decide +kernel, by decide +kernel, rfl, ?_⟩
  rintro ⟨hmatch, -⟩
  exact absurd (hmatch rfl) (by decide +kernel)

end Fitz

import Fitz.Lib.Outputs
import Fitz.Proof.Lifecycle
import Fitz.Proof.Publications

/-!
# What a finished connect tells

Calls of `Client::connect` and `Client::close` overlap with each other, with their
timeouts and with the supervisors, and all are answered over one shape of channel.
`connect_truthful`: a call of `connect` returns at most once, and when it returns `Ok` a
supervisor that held its request came into a session, or stood in one, while the call was
out. `ConnectInv` keeps the tickets of the two kinds of call apart, wherever they are.
-/

namespace Fitz

open Machine

variable {policy : ReconnectPolicy}

/-- The ticket of a call of `Client::connect`, as the call is made. -/
def Client.called (s : Client) : ClientEvent → List Ticket
  | .connect => [s.nextTicket]
  | _ => []

/-- `t` is the ticket of a `Client::close` call. -/
def Closes (called : List Ticket) (next t : Ticket) : Prop := t < next ∧ t ∉ called

/-- A command answers to the kind of call that sent it. -/
def Control.Kind (called : List Ticket) (next : Ticket) : Control → Prop
  | .connect t => t ∈ called
  | .close t => Closes called next t

def SupEvent.Kind (called : List Ticket) (next : Ticket) : SupEvent → Prop
  | .connect t => t ∈ called
  | .close t => Closes called next t
  | _ => True

/-- What a supervisor holds answers to the calls that sent it. -/
structure Addressed (called : List Ticket) (next : Ticket) (c : Spawned) : Prop where
  commands : ∀ x ∈ c.commands, x.Kind called next
  initial : ∀ t, c.sup.initialResponse = some t → t ∈ called
  closing : ∀ t, c.sup.pc = .closing t → Closes called next t

/-- The tickets of a client: each belongs to one call, of one kind. -/
structure ConnectInv (called : List Ticket) (s : Client) : Prop where
  bound : ∀ t ∈ called, t < s.nextTicket
  call : ∀ t pc, s.calls.lookup t = some pc →
    t < s.nextTicket ∧ (pc.connecting = true ↔ t ∈ called)
  conn : ∀ c ∈ s.connections, Addressed called s.nextTicket c
  returned : ∀ p ∈ s.returned,
    p.1 ∈ called ∧ s.calls.lookup p.1 = none ∧ (p.2 = .ok () → p ∈ s.answers)
  once : (s.returned.map Prod.fst).Nodup

variable {called : List Ticket} {next t : Ticket} {s s' : Client}

/-! ## The supervisor -/

theorem move_addressed {e : SupEvent} {sup sup' : Sup} {acts : List Act}
    (hm : Move policy e sup sup' acts) (he : e.Kind called next)
    (hi : ∀ t, sup.initialResponse = some t → t ∈ called)
    (hc : ∀ t, sup.pc = .closing t → Closes called next t) :
    (∀ t, sup'.initialResponse = some t → t ∈ called) ∧
      ∀ t, sup'.pc = .closing t → Closes called next t := by
  cases hm with
  | stay | requestClose => exact ⟨hi, hc⟩
  | call t =>
    refine ⟨fun t' ht => ?_, by simp⟩
    cases ht
    exact he
  | close t =>
    refine ⟨hi, fun t' ht => ?_⟩
    cases ht
    exact he
  | connected => exact ⟨hi, by simp⟩
  | announce | closedBefore | closedAfter | giveUp | closed | hangup | exhaust => simp
  | _ => exact ⟨hi, by simp⟩

/-- Whom a supervisor tells of success, and where it stands then. -/
theorem step_ok (sup : Sup) (e : SupEvent) (h : Act.reply t (.ok ()) ∈ (sup.step policy e).2) :
    (sup.initialResponse = some t ∧ (sup.step policy e).1.pc = .entering) ∨
      (e = .connect t ∧ (sup.step policy e).1.pc = .session) ∨
        e = .close t ∨ sup.pc = .closing t := by
  have hfailed : ∀ error, sup.pc = .failed error → Act.reply t (.ok ()) ∉ (sup.step policy e).2 :=
    fun error hpc => failed_reply sup e hpc t
  have hm := step_move policy sup e
  revert hfailed h hm
  generalize (sup.step policy e).2 = acts
  generalize (sup.step policy e).1 = sup'
  intro h hfailed hm
  cases hm with
  | closeIdle t' =>
    obtain rfl : t = t' := by simpa using h
    exact .inr (.inr (.inl rfl))
  | announce =>
    refine .inl ⟨?_, rfl⟩
    unfold Sup.replyInitial at h
    split at h
    · rename_i hi
      obtain rfl : t = _ := by simpa using h
      exact hi
    · simp at h
  | giveUp => exact absurd h (hfailed _ rfl)
  | connected t' =>
    obtain rfl : t = t' := by simpa using h
    exact .inr (.inl ⟨rfl, rfl⟩)
  | closed t' =>
    obtain rfl : t = t' := by simpa using h
    exact .inr (.inr (.inr rfl))
  | exhaust =>
    unfold Sup.replyInitial at h
    split at h <;> simp at h
  | _ => simp at h

/-! ## What `observe` leaves -/

theorem mem_observe_answers (s : Client) (acts : List Act) (p : Ticket × Result Unit) :
    p ∈ (s.observe acts).answers ↔ p ∈ s.answers ∨ Act.reply p.1 p.2 ∈ acts := by
  induction acts generalizing s with
  | nil => simp
  | cons a acts ih =>
    cases a with
    | reply t' r =>
      have hp : p = (t', r) ↔ Act.reply p.1 p.2 = .reply t' r := by simp [Prod.ext_iff]
      refine (ih _).trans ?_
      rw [List.mem_append, List.mem_singleton, List.mem_cons, hp, or_assoc]
    | _ => exact (ih _).trans (by simp [Client.write])

theorem observe_calls (s : Client) (acts : List Act) :
    (s.observe acts).nextTicket = s.nextTicket ∧ (s.observe acts).returned = s.returned := by
  induction acts generalizing s with
  | nil => exact ⟨rfl, rfl⟩
  | cons a acts ih => cases a <;> exact ih _

theorem nodup_fst_concat {A B : Type*} {l : List (A × B)} {a : A} (b : B)
    (h : (l.map Prod.fst).Nodup) (hnot : ∀ p ∈ l, p.1 ≠ a) :
    ((l ++ [(a, b)]).map Prod.fst).Nodup := by
  rw [List.map_append]
  refine List.Nodup.append h (List.nodup_singleton a) (List.disjoint_singleton.2 fun hin => ?_)
  obtain ⟨p, hp, hpa⟩ := List.mem_map.1 hin
  exact hnot p hp hpa

/-! ## Steps of the client -/

namespace ConnectInv

/-- A step that leaves connections and finished calls, and takes no call from one kind to the
other. -/
theorem frame (h : ConnectInv called s) (hnext : s'.nextTicket = s.nextTicket)
    (hconns : s'.connections = s.connections) (hret : s'.returned = s.returned)
    (hans : s'.answers = s.answers) (hcalls : s'.calls = s.calls) : ConnectInv called s' := by
  refine ⟨?_, ?_, ?_, ?_, ?_⟩
  · rw [hnext]
    exact h.bound
  · rw [hnext, hcalls]
    exact h.call
  · rw [hnext, hconns]
    exact h.conn
  · rw [hret, hcalls, hans]
    exact h.returned
  · rw [hret]
    exact h.once

/-- A call that stands at `pc`. -/
theorem setCall (h : ConnectInv called s) {pc : CallPc} (ht : t < s.nextTicket)
    (hpc : pc.connecting = true ↔ t ∈ called) (hnot : ∀ p ∈ s.returned, p.1 ≠ t) :
    ConnectInv called (s.setCall t pc) := by
  refine ⟨h.bound, fun t' pc' hl => ?_, h.conn, fun p hp => ?_, h.once⟩
  · by_cases heq : t' = t
    · subst heq
      obtain rfl : pc = pc' := by simpa [Client.setCall, AList.lookup_insert] using hl
      exact ⟨ht, hpc⟩
    · rw [Client.setCall, AList.lookup_insert_ne heq] at hl
      exact h.call t' pc' hl
  · obtain ⟨hin, hnone, hans⟩ := h.returned p hp
    refine ⟨hin, ?_, hans⟩
    rw [Client.setCall, AList.lookup_insert_ne (hnot p hp)]
    exact hnone

/-- A call that is out has not returned. -/
theorem out (h : ConnectInv called s) {pc : CallPc} (hl : s.calls.lookup t = some pc) :
    ∀ p ∈ s.returned, p.1 ≠ t := by
  rintro p hp rfl
  rw [(h.returned p hp).2.1] at hl
  cases hl

/-- A call goes on. -/
theorem goOn (h : ConnectInv called s) {pc pc' : CallPc} (hl : s.calls.lookup t = some pc)
    (hpc : pc'.connecting = pc.connecting) : ConnectInv called (s.setCall t pc') := by
  obtain ⟨ht, hkind⟩ := h.call t pc hl
  exact h.setCall ht (hpc ▸ hkind) (h.out hl)

theorem endCall (h : ConnectInv called s) (t : Ticket) : ConnectInv called (s.endCall t) := by
  have hlookup : ∀ t', (s.endCall t).calls.lookup t' = if t' = t then none else s.calls.lookup t' := by
    intro t'
    by_cases heq : t' = t
    · subst heq
      simp [Client.endCall, AList.lookup_erase]
    · simp [Client.endCall, AList.lookup_erase_ne heq, heq]
  refine ⟨h.bound, fun t' pc hl => ?_, h.conn, fun p hp => ?_, h.once⟩
  · rw [hlookup] at hl
    split at hl
    · cases hl
    · exact h.call t' pc hl
  · obtain ⟨hin, hnone, hans⟩ := h.returned p hp
    refine ⟨hin, ?_, hans⟩
    rw [hlookup, hnone]
    simp

/-- A call of `Client::connect` returns. -/
theorem return_ (h : ConnectInv called s) {pc : CallPc} {r : Result Unit}
    (hl : s.calls.lookup t = some pc) (hpc : pc.connecting = true)
    (hr : r = .ok () → (t, r) ∈ s.answers) : ConnectInv called (s.return_ t r) := by
  have hend := h.endCall t
  refine ⟨h.bound, hend.call, h.conn, fun p hp => ?_, ?_⟩
  · rcases List.mem_append.1 hp with hp | hp
    · exact hend.returned p hp
    · obtain rfl := List.mem_singleton.1 hp
      exact ⟨(h.call t pc hl).2.1 hpc, by simp [Client.return_, AList.lookup_erase], hr⟩
  · exact nodup_fst_concat r h.once (h.out hl)

/-- A new ticket is given out, to `connect` or not. -/
theorem tick (h : ConnectInv called s) {fresh : List Ticket} (hfresh : ∀ t ∈ fresh, t = s.nextTicket) :
    ConnectInv (called ++ fresh) { s with nextTicket := s.nextTicket + 1 } := by
  have hold : ∀ t, t < s.nextTicket → (t ∈ called ++ fresh ↔ t ∈ called) := by
    intro t ht
    rw [List.mem_append]
    exact ⟨fun hin => hin.elim id fun hin => absurd (hfresh t hin) (Nat.ne_of_lt ht), .inl⟩
  have hcloses : ∀ t, Closes called s.nextTicket t → Closes (called ++ fresh) (s.nextTicket + 1) t :=
    fun t hc => ⟨Nat.lt_succ_of_lt hc.1, fun hin => hc.2 ((hold t hc.1).1 hin)⟩
  refine ⟨fun t ht => ?_, fun t pc hl => ?_, fun c hc => ?_, fun p hp => ?_, h.once⟩
  · rcases List.mem_append.1 ht with ht | ht
    · exact Nat.lt_succ_of_lt (h.bound t ht)
    · rw [hfresh t ht]
      exact Nat.lt_succ_self _
  · obtain ⟨ht, hkind⟩ := h.call t pc hl
    exact ⟨Nat.lt_succ_of_lt ht, hkind.trans (hold t ht).symm⟩
  · obtain ⟨hcmd, hi, hcl⟩ := h.conn c hc
    refine ⟨fun x hx => ?_, fun t ht => List.mem_append_left _ (hi t ht),
      fun t ht => hcloses t (hcl t ht)⟩
    have hkind := hcmd x hx
    cases x with
    | connect t => exact List.mem_append_left _ hkind
    | close t => exact hcloses t hkind
  · obtain ⟨hin, hnone, hans⟩ := h.returned p hp
    exact ⟨List.mem_append_left _ hin, hnone, hans⟩

theorem attach (h : ConnectInv called s) : ConnectInv called s.attach.1 := by
  unfold Client.attach
  split
  · exact h
  · refine ⟨h.bound, h.call, fun c hc => ?_, h.returned, h.once⟩
    rcases List.mem_append.1 hc with hc | hc
    · exact h.conn c hc
    · obtain rfl := List.mem_singleton.1 hc
      exact ⟨by simp, by simp [Sup.new], by simp [Sup.new]⟩

theorem send (h : ConnectInv called s) (k : ℕ) {x : Control} (hx : x.Kind called s.nextTicket) :
    ConnectInv called (s.send k x) := by
  refine ⟨h.bound, h.call, fun c hc => ?_, h.returned, h.once⟩
  obtain ⟨j, hj⟩ := List.mem_iff_getElem?.1 hc
  simp only [Client.send, List.getElem?_modify] at hj
  obtain ⟨c0, hc0, rfl⟩ := Option.map_eq_some_iff.1 hj
  obtain ⟨hcmd, hi, hcl⟩ := h.conn c0 (List.mem_of_getElem? hc0)
  split
  · refine ⟨fun y hy => ?_, hi, hcl⟩
    rcases List.mem_append.1 hy with hy | hy
    · exact hcmd y hy
    · obtain rfl := List.mem_singleton.1 hy
      exact hx
  · exact ⟨hcmd, hi, hcl⟩

/-- Another state of connection `k`, where it answers to the same calls. -/
theorem set (h : ConnectInv called s) (k : ℕ) {c : Spawned} (hc : Addressed called s.nextTicket c) :
    ConnectInv called { s with connections := s.connections.set k c } := by
  refine ⟨h.bound, h.call, fun c' hc' => ?_, h.returned, h.once⟩
  rcases List.mem_or_eq_of_mem_set hc' with hmem | rfl
  · exact h.conn c' hmem
  · exact hc

theorem observe (h : ConnectInv called s) (acts : List Act) : ConnectInv called (s.observe acts) := by
  obtain ⟨-, hconns, hcalls, -⟩ := observe_frame s acts
  obtain ⟨hnext, hret⟩ := observe_calls s acts
  refine ⟨?_, ?_, ?_, ?_, ?_⟩
  · rw [hnext]
    exact h.bound
  · rw [hnext, hcalls]
    exact h.call
  · rw [hnext, hconns]
    exact h.conn
  · rw [hret, hcalls]
    intro p hp
    obtain ⟨hin, hnone, hans⟩ := h.returned p hp
    exact ⟨hin, hnone, fun hr => (mem_observe_answers s acts p).2 (.inl (hans hr))⟩
  · rw [hret]
    exact h.once

theorem runTask (h : ConnectInv called s) (k : ℕ) {e : SupEvent} (he : e.Kind called s.nextTicket) :
    ConnectInv called (s.runTask policy k e) := by
  unfold Client.runTask
  split
  · exact h
  · rename_i c hc
    obtain ⟨hcmd, hi, hcl⟩ := h.conn c (List.mem_of_getElem? hc)
    obtain ⟨hi', hcl'⟩ := move_addressed (step_move policy c.sup e) he hi hcl
    exact (h.set k (c := { c with sup := (c.sup.step policy e).1 }) ⟨hcmd, hi', hcl'⟩).observe _

theorem receive (h : ConnectInv called s) (k : ℕ) : ConnectInv called (s.receive policy k) := by
  unfold Client.receive
  split
  · exact h
  · rename_i c hc
    split
    · rename_i command commands _ hcommands
      obtain ⟨hcmd, hi, hcl⟩ := h.conn c (List.mem_of_getElem? hc)
      have hkind := hcmd command (by simp [hcommands])
      -- the command leaves the channel first
      have hpop := h.set k (c := { c with commands := commands })
        ⟨fun x hx => hcmd x (by simp [hcommands, hx]), hi, hcl⟩
      refine hpop.runTask k ?_
      cases command with
      | connect t => exact hkind
      | close t => exact hkind
    · exact h

theorem resume (h : ConnectInv called s) (t : Ticket) : ConnectInv called (s.resume policy t) := by
  unfold Client.resume
  split
  · rename_i hl
    exact (h.frame rfl rfl rfl rfl rfl : ConnectInv called (s.write .facade .connecting)).goOn hl rfl
  · rename_i hl
    have hattached : s.attach.1.calls.lookup t = some .announced := by
      unfold Client.attach
      split <;> exact hl
    exact h.attach.goOn hattached rfl
  · rename_i hl
    split
    · exact h.return_ hl rfl (by simp)
    · exact h.goOn hl rfl
  · rename_i hl
    split
    · exact h.return_ hl rfl (by simp)
    · exact (h.send _ (x := .connect t) ((h.call t _ hl).2.1 rfl)).goOn hl rfl
  · rename_i hl
    split
    · rename_i t' result hfind
      obtain rfl : t' = t := by simpa using List.find?_some hfind
      exact h.return_ hl rfl fun _ => List.mem_of_find?_eq_some hfind
    · split
      · exact h
      · exact h.return_ hl rfl (by simp)
  · rename_i k hl
    split
    · exact h.goOn hl rfl
    · have htask : (s.runTask policy k .requestClose).calls.lookup t = some (.taken k) := by
        unfold Client.runTask
        split
        · exact hl
        · rw [(observe_frame _ _).2.2.1]
          exact hl
      exact (h.runTask k (e := .requestClose) trivial).goOn htask rfl
  · rename_i hl
    obtain ⟨ht, hkind⟩ := h.call t _ hl
    have hclose : Closes called s.nextTicket t := ⟨ht, fun hin => by cases hkind.2 hin⟩
    exact (h.send _ (x := .close t) hclose).goOn hl rfl
  · rename_i hl
    split
    · exact h.goOn hl rfl
    · exact h
  · exact (h.frame rfl rfl rfl rfl rfl : ConnectInv called (s.write .facade .closed)).endCall t
  · exact h

theorem expire (h : ConnectInv called s) (t : Ticket) : ConnectInv called (s.expire t) := by
  unfold Client.expire
  split
  · rename_i hl
    exact h.return_ hl rfl (by simp)
  · rename_i hl
    exact h.return_ hl rfl (by simp)
  · rename_i hl
    exact h.goOn hl rfl
  · rename_i hl
    exact h.goOn hl rfl
  · exact h

/-- **One step of the client.** -/
theorem step (h : ConnectInv called s) (e : ClientEvent) :
    ConnectInv (called ++ s.called e) (s.step policy e) := by
  have hnot : ∀ p ∈ s.returned, p.1 ≠ s.nextTicket :=
    fun p hp => Nat.ne_of_lt (h.bound p.1 (h.returned p hp).1)
  cases e with
  | connect =>
    have htick : ConnectInv (called ++ [s.nextTicket]) { s with nextTicket := s.nextTicket + 1 } :=
      h.tick (by simp)
    simp only [Client.step, Client.called]
    split
    · refine ⟨htick.bound, htick.call, htick.conn, fun p hp => ?_, nodup_fst_concat _ h.once hnot⟩
      rcases List.mem_append.1 hp with hp | hp
      · exact htick.returned p hp
      · obtain rfl := List.mem_singleton.1 hp
        refine ⟨by simp, ?_, by simp⟩
        by_contra hsome
        obtain ⟨pc, hpc⟩ := Option.ne_none_iff_exists'.1 hsome
        exact Nat.lt_irrefl _ (h.call _ pc hpc).1
    · exact htick.setCall (Nat.lt_succ_self _) (by simp [CallPc.connecting]) hnot
  | close =>
    simp only [Client.called, List.append_nil]
    have htick : ConnectInv called { s with nextTicket := s.nextTicket + 1 } := by
      simpa using h.tick (fun t ht => absurd ht (List.not_mem_nil (a := t)))
    have hnew : s.nextTicket ∉ called := fun hin => Nat.lt_irrefl _ (h.bound _ hin)
    simp only [Client.step]
    split
    · have hslot : ConnectInv called { s with
          nextTicket := s.nextTicket + 1, closeCalled := true, slot := none } :=
        htick.frame rfl rfl rfl rfl rfl
      exact hslot.setCall (Nat.lt_succ_self _) (by simpa [CallPc.connecting] using hnew) hnot
    · have hclosed : ConnectInv called { s with
          nextTicket := s.nextTicket + 1, closeCalled := true } :=
        htick.frame rfl rfl rfl rfl rfl
      exact hclosed.setCall (Nat.lt_succ_self _) (by simpa [CallPc.connecting] using hnew) hnot
  | resume t =>
    simp only [Client.called, List.append_nil]
    exact h.resume t
  | expire t =>
    simp only [Client.called, List.append_nil]
    exact h.expire t
  | abandon t =>
    simp only [Client.called, List.append_nil]
    exact h.endCall t
  | receive k =>
    simp only [Client.called, List.append_nil]
    exact h.receive k
  | hangup k =>
    simp only [Client.step, Client.called, List.append_nil]
    split
    · exact h.runTask k trivial
    · exact h
  | task k e =>
    simp only [Client.step, Client.called, List.append_nil]
    split
    · rename_i he
      refine h.runTask k ?_
      cases e <;> trivial
    · exact h

end ConnectInv

theorem connectInv_new : ConnectInv [] .new :=
  ⟨by simp, by simp [Client.new], by simp [Client.new], by simp [Client.new], by simp [Client.new]⟩

/-- The tickets that the run gave to calls of `Client::connect`. -/
def calledBy (policy : ReconnectPolicy) (s : Client) (es : List ClientEvent) : List Ticket :=
  outputs (Client.step policy) Client.called s es

theorem connectInv_run (es : List ClientEvent) :
    ConnectInv (calledBy policy .new es) (run (Client.step policy) .new es) :=
  outputs_inv (fun _ _ e h => h.step e) connectInv_new es

/-! ## What a run adds -/

theorem nextTicket_attach (s : Client) : s.attach.1.nextTicket = s.nextTicket := by
  unfold Client.attach
  split <;> rfl

theorem runTask_calls (s : Client) (k : ℕ) (e : SupEvent) :
    (s.runTask policy k e).nextTicket = s.nextTicket ∧
      (s.runTask policy k e).returned = s.returned := by
  unfold Client.runTask
  split
  · exact ⟨rfl, rfl⟩
  · exact observe_calls _ _

theorem receive_calls (s : Client) (k : ℕ) :
    (s.receive policy k).nextTicket = s.nextTicket ∧
      (s.receive policy k).returned = s.returned := by
  unfold Client.receive
  split
  · exact ⟨rfl, rfl⟩
  · split
    · exact runTask_calls _ k _
    · exact ⟨rfl, rfl⟩

/-- Tickets are counted up, and what was returned stays. -/
def Grows (s s' : Client) : Prop := s.nextTicket ≤ s'.nextTicket ∧ s.returned ⊆ s'.returned

theorem grows_return (s : Client) (t : Ticket) (r : Result Unit) : Grows s (s.return_ t r) :=
  ⟨Nat.le_refl _, List.subset_append_left _ _⟩

theorem grows_same (hnext : s'.nextTicket = s.nextTicket) (hret : s'.returned = s.returned) :
    Grows s s' :=
  ⟨Nat.le_of_eq hnext.symm, fun _ hp => hret ▸ hp⟩

theorem grows_step (s : Client) (e : ClientEvent) : Grows s (s.step policy e) := by
  cases e with
  | connect =>
    simp only [Client.step]
    split
    · exact ⟨Nat.le_succ _, List.subset_append_left _ _⟩
    · exact ⟨Nat.le_succ _, List.Subset.refl _⟩
  | close =>
    simp only [Client.step]
    split <;> exact ⟨Nat.le_succ _, List.Subset.refl _⟩
  | resume t =>
    simp only [Client.step, Client.resume]
    split
    · exact grows_same rfl rfl
    · refine grows_same (nextTicket_attach s) ?_
      unfold Client.attach
      split <;> rfl
    · split
      · exact grows_return s t _
      · exact grows_same rfl rfl
    · split
      · exact grows_return s t _
      · exact grows_same rfl rfl
    · split
      · exact grows_return s t _
      · split
        · exact grows_same rfl rfl
        · exact grows_return s t _
    · split
      · exact grows_same rfl rfl
      · exact grows_same (runTask_calls s _ _).1 (runTask_calls s _ _).2
    · exact grows_same rfl rfl
    · split <;> exact grows_same rfl rfl
    · exact grows_same rfl rfl
    · exact grows_same rfl rfl
  | expire t =>
    simp only [Client.step, Client.expire]
    split <;> first | exact grows_return s t _ | exact grows_same rfl rfl
  | abandon t => exact grows_same rfl rfl
  | receive k => exact grows_same (receive_calls s k).1 (receive_calls s k).2
  | hangup k =>
    simp only [Client.step]
    split
    · exact grows_same (runTask_calls s k _).1 (runTask_calls s k _).2
    · exact grows_same rfl rfl
  | task k e =>
    simp only [Client.step]
    split
    · exact grows_same (runTask_calls s k e).1 (runTask_calls s k e).2
    · exact grows_same rfl rfl

theorem grows_run (s : Client) (es : List ClientEvent) : Grows s (run (Client.step policy) s es) :=
  run_inv (I := Grows s)
    (fun s' e h => ⟨h.1.trans (grows_step s' e).1, List.Subset.trans h.2 (grows_step s' e).2⟩)
    ⟨Nat.le_refl _, List.Subset.refl _⟩ es

/-- What a run gives to `connect` it did not give before. -/
theorem calledBy_fresh (s : Client) (es : List ClientEvent) :
    ∀ t ∈ calledBy policy s es, s.nextTicket ≤ t := by
  induction es generalizing s with
  | nil => simp [calledBy]
  | cons e es ih =>
    intro t ht
    rcases List.mem_append.1 ht with ht | ht
    · cases e with
      | connect => exact Nat.le_of_eq (List.mem_singleton.1 ht).symm
      | _ => simp [Client.called] at ht
    · exact (grows_step s e).1.trans (ih _ t ht)

/-! ## The answer -/

/-- A step of supervisor `k` that tells `t` of success. -/
theorem runTask_ok {k : ℕ} {e : SupEvent} (hnot : (t, .ok ()) ∉ s.answers)
    (hin : (t, .ok ()) ∈ (s.runTask policy k e).answers) :
    ∃ c c', s.connections[k]? = some c ∧ (s.runTask policy k e).connections[k]? = some c' ∧
      ((c.sup.initialResponse = some t ∧ c'.sup.pc = .entering) ∨
        (e = .connect t ∧ c'.sup.pc = .session) ∨ e = .close t ∨ c.sup.pc = .closing t) := by
  unfold Client.runTask at hin ⊢
  split at hin
  · exact absurd hin hnot
  · rename_i c hc
    have hreply := ((mem_observe_answers _ _ _).1 hin).resolve_left hnot
    refine ⟨c, { c with sup := (c.sup.step policy e).1 }, hc, ?_, step_ok c.sup e hreply⟩
    rw [(observe_frame _ _).2.1]
    have hlt := (List.getElem?_eq_some_iff.1 hc).1
    simp [hlt]

/-- A supervisor that holds the request of `t` comes into a session, or stands in one. -/
def Honours (s s' : Client) (t : Ticket) : Prop :=
  ∃ (k : ℕ) (c c' : Spawned), s.connections[k]? = some c ∧
    (c.sup.initialResponse = some t ∨ .connect t ∈ c.commands) ∧
    s'.connections[k]? = some c' ∧ (c'.sup.pc = .entering ∨ c'.sup.pc = .session)

/-- A supervisor on an event that no command carries. -/
theorem runTask_honours (h : ConnectInv called s) {k : ℕ} {e : SupEvent}
    (hconnect : e ≠ .connect t) (hclose : e ≠ .close t) (hnot : (t, .ok ()) ∉ s.answers)
    (hin : (t, .ok ()) ∈ (s.runTask policy k e).answers) :
    Honours s (s.runTask policy k e) t ∨ Closes called s.nextTicket t := by
  obtain ⟨c, c', hc, hc', ⟨hi, hpc⟩ | ⟨he, -⟩ | he | hpc⟩ := runTask_ok hnot hin
  · exact .inl ⟨k, c, c', hc, .inl hi, hc', .inl hpc⟩
  · exact absurd he hconnect
  · exact absurd he hclose
  · exact .inr ((h.conn c (List.mem_of_getElem? hc)).closing t hpc)

/-- A supervisor takes a command. -/
theorem receive_honours (h : ConnectInv called s) {k : ℕ} (hnot : (t, .ok ()) ∉ s.answers)
    (hin : (t, .ok ()) ∈ (s.receive policy k).answers) :
    Honours s (s.receive policy k) t ∨ Closes called s.nextTicket t := by
  unfold Client.receive at hin ⊢
  split at hin
  · exact absurd hin hnot
  · rename_i c hc
    split at hin
    · rename_i command commands _ hcommands
      obtain ⟨hcmd, -, hcl⟩ := h.conn c (List.mem_of_getElem? hc)
      have hmem : command ∈ c.commands := by simp [hcommands]
      obtain ⟨c1, c', hc1, hc', hwhy⟩ := runTask_ok (by exact hnot) hin
      obtain rfl : { c with commands := commands } = c1 := by
        have hlt := (List.getElem?_eq_some_iff.1 hc).1
        simpa [hlt] using hc1
      rcases hwhy with ⟨hi, hpc⟩ | ⟨he, hpc⟩ | he | hpc
      · exact .inl ⟨k, c, c', hc, .inl hi, hc', .inl hpc⟩
      · cases command with
        | connect t' =>
          obtain rfl : t' = t := by simpa using he
          exact .inl ⟨k, c, c', hc, .inr hmem, hc', .inr hpc⟩
        | close t' => cases he
      · cases command with
        | connect t' => cases he
        | close t' =>
          obtain rfl : t' = t := by simpa using he
          exact .inr (hcmd _ hmem)
      · exact .inr (hcl t hpc)
    · exact absurd hin hnot

/-- **Where success comes from.** The step that tells `t` of success honours its request, or
`t` is the ticket of a `close`. -/
theorem step_honours (h : ConnectInv called s) (e : ClientEvent) (hnot : (t, .ok ()) ∉ s.answers)
    (hin : (t, .ok ()) ∈ (s.step policy e).answers) :
    Honours s (s.step policy e) t ∨ Closes called s.nextTicket t := by
  -- most steps answer nobody
  have hquiet : (s.step policy e).answers = s.answers →
      Honours s (s.step policy e) t ∨ Closes called s.nextTicket t :=
    fun hsame => absurd (hsame ▸ hin) hnot
  cases e with
  | connect =>
    refine hquiet ?_
    simp only [Client.step]
    split <;> rfl
  | close =>
    refine hquiet ?_
    simp only [Client.step]
    split <;> rfl
  | resume t' =>
    refine hquiet ?_
    simp only [Client.step, Client.resume]
    split
    · rfl
    · unfold Client.attach
      split <;> rfl
    · split <;> rfl
    · split <;> rfl
    · split
      · rfl
      · split <;> rfl
    · split
      · rfl
      · unfold Client.runTask
        split
        · rfl
        · simp [Sup.step, Client.setCall]
    · rfl
    · split <;> rfl
    · rfl
    · rfl
  | expire t' =>
    refine hquiet ?_
    simp only [Client.step, Client.expire]
    split <;> rfl
  | abandon t' => exact hquiet rfl
  | receive k => exact receive_honours h hnot hin
  | hangup k =>
    simp only [Client.step] at hin ⊢
    split at hin
    · rename_i hk
      rw [if_pos hk]
      exact runTask_honours h (by simp) (by simp) hnot hin
    · exact absurd hin hnot
  | task k e =>
    simp only [Client.step] at hin ⊢
    split at hin
    · rename_i he
      rw [if_pos he]
      refine runTask_honours h ?_ ?_ hnot hin
      · rintro rfl
        simp [Client.internal] at he
      · rintro rfl
        simp [Client.internal] at he
    · exact absurd hin hnot

/-- **What a connect tells.** In every run, whatever calls overlap and whichever of them time
out or are dropped, a `Client::connect` call returns at most once; and one that returns `Ok`
was honoured while it was out: at one step, a supervisor that held its request came into a
session or stood in one. -/
theorem connect_truthful (policy : ReconnectPolicy) (es : List ClientEvent) :
    ((run (Client.step policy) .new es).returned.map Prod.fst).Nodup ∧
      ∀ t, (t, .ok ()) ∈ (run (Client.step policy) .new es).returned →
        ∃ before e after, es = before ++ e :: after ∧
          (∀ r, (t, r) ∉ (run (Client.step policy) .new before).returned) ∧
          Honours (run (Client.step policy) .new before)
            (run (Client.step policy) .new (before ++ [e])) t := by
  have hrun : ConnectInv (calledBy policy .new es) (run (Client.step policy) .new es) :=
    connectInv_run es
  refine ⟨hrun.once, fun t ht => ?_⟩
  obtain ⟨hcalled, -, hans⟩ := hrun.returned _ ht
  obtain ⟨before, e, after, hes, hnot, hin⟩ :=
    exists_turning (P := fun s : Client => (t, .ok ()) ∈ s.answers) (by simp [Client.new]) (hans rfl)
  have hbefore : ConnectInv (calledBy policy .new before) (run (Client.step policy) .new before) :=
    connectInv_run before
  have hrest : run (Client.step policy) .new es =
      run (Client.step policy) (run (Client.step policy) .new before) (e :: after) := by
    rw [hes, run_append]
  refine ⟨before, e, after, hes, fun r hr => ?_, ?_⟩
  · -- an earlier return would be another return of the same call
    have hgrows : Grows (run (Client.step policy) .new before)
        (run (Client.step policy) (run (Client.step policy) .new before) (e :: after)) :=
      grows_run _ _
    have hkept := hgrows.2 hr
    rw [← hrest] at hkept
    obtain rfl : r = .ok () := by
      simpa using List.inj_on_of_nodup_map hrun.once hkept ht rfl
    exact hnot ((hbefore.returned _ hr).2.2 rfl)
  · rw [run_append]
    refine (step_honours hbefore e hnot hin).resolve_right fun hcloses => hcloses.2 ?_
    have hsplit : calledBy policy .new es =
        calledBy policy .new before ++
          calledBy policy (run (Client.step policy) .new before) (e :: after) := by
      rw [hes]
      exact outputs_append _ _ _ _ _
    rw [hsplit] at hcalled
    refine (List.mem_append.1 hcalled).resolve_right fun hlate => ?_
    exact absurd hcloses.1 (Nat.not_lt.2 (calledBy_fresh _ _ t hlate))

end Fitz

import Fitz.Proof.History

/-!
# The in-flight limit

The configured limit and the negotiated one share one atomic, and each HELLO
takes the minimum of its own limit and what is there. `session_limits`: in every
session of every run, the limit in force is that of the configuration and of the
session's own HELLO exactly when no earlier HELLO of the client was lower; the
requests outstanding never exceed it, and a request is refused for it only when
exactly as many are outstanding.
-/

namespace Fitz

open Machine

/-- The error of a request refused for the in-flight limit. -/
def inFlightError : FitzError := .backpressure "broker max in-flight limit reached"

/-- What the configuration and the session's own HELLO allow. -/
def sessionLimit (cfg : Config) (own : UInt32) : ℕ := min cfg.capacity.toNat own.toNat

/-- The limit of a live session is its own: it is in force, it bounds the requests
outstanding, and only at it is a request refused. -/
structure LimitsOwn (cfg : Config) (s : Conn) (own : UInt32) : Prop where
  inForce : s.shared.maxInFlight.toNat = sessionLimit cfg own
  bound : s.loop.correlated.entries.length ≤ sessionLimit cfg own
  refused : ∀ c written t,
    Effect.respond t (.error inFlightError) ∈ (s.loop.onCommand s.shared c written).effects →
      s.loop.correlated.entries.length = sessionLimit cfg own

/-! ## The atomic -/

/-- The minimum of `a` and all of `l`, as the HELLOs take it. -/
def lowest (a : ℕ) (l : List UInt32) : ℕ := l.foldl (fun m h => min h.toNat m) a

theorem le_lowest {x a : ℕ} {l : List UInt32} : x ≤ lowest a l ↔ x ≤ a ∧ ∀ h ∈ l, x ≤ h.toNat := by
  induction l generalizing a with
  | nil => simp [lowest]
  | cons h l ih =>
    have hcons : lowest a (h :: l) = lowest (min h.toNat a) l := rfl
    rw [hcons, ih, le_min_iff]
    simp only [List.mem_cons, forall_eq_or_imp]
    tauto

theorem lowest_concat (a : ℕ) (l : List UInt32) (h : UInt32) :
    lowest a (l ++ [h]) = min h.toNat (lowest a l) := by
  simp [lowest]

theorem toNat_min (a b : UInt64) : (min a b).toNat = min a.toNat b.toNat := by
  have hmin : min a b = if a ≤ b then a else b := rfl
  rw [hmin]
  split
  · rename_i h
    exact (Nat.min_eq_left (UInt64.le_iff_toNat_le.1 h)).symm
  · rename_i h
    exact (Nat.min_eq_right (not_le.1 fun hle => h (UInt64.le_iff_toNat_le.2 hle)).le).symm

/-- The atomic holds the lowest limit so far, and from its HELLO on a transport's
own is the last. -/
structure HelloInv (capacity : ℕ) (maxInFlight capabilities : UInt64) (serial : ℕ)
    (hellos : List (ℕ × UInt32)) : Prop where
  lowest : maxInFlight.toNat = lowest capacity (hellos.map Prod.snd)
  greeted : capabilities ≠ 0 → ∃ earlier own, hellos = earlier ++ [(serial, own)]

namespace Conn

variable {cfg : Config} {s : Conn}

def helloInv (cfg : Config) (s : Conn) : Prop :=
  HelloInv cfg.capacity.toNat s.shared.maxInFlight s.shared.capabilities s.serial s.hellos

theorem helloInv_auth (h : s.helloInv cfg) (answer : Result Bytes) :
    (s.auth cfg answer).helloInv cfg := by
  unfold auth
  split
  · split
    · exact h
    · rename_i shared hok
      obtain ⟨mask, hello, had, rfl⟩ := settleAuthentication_ok hok
      have hopt : (answer.bind advertised).toOption.map (fun h => (s.serial, h.maxInFlight)) =
          some (s.serial, hello.maxInFlight) := by
        rw [had]
        rfl
      simp only [helloInv, hopt, Option.toList_some]
      refine ⟨?_, fun _ => ⟨s.hellos, hello.maxInFlight, rfl⟩⟩
      rw [toNat_min, List.map_append, List.map_singleton, lowest_concat, h.lowest,
        UInt32.toNat_toUInt64]
  · exact h

theorem helloInv_step (s : Conn) (e : Event) (hn : s.negotiated) (h : s.helloInv cfg) :
    (s.step cfg e).helloInv cfg := by
  cases e with
  | auth answer => exact helloInv_auth h answer
  | advance =>
    have ha := advance_advanced cfg s
    simp only [step]
    generalize s.advance cfg = s' at ha
    cases ha with
    | negotiate => exact ⟨h.lowest, fun h0 => absurd rfl h0⟩
    | _ => exact h
  | inbound frame answers written =>
    by_cases hpc : s.pc = .session
    · obtain ⟨hf, -⟩ := inbound_frame cfg hn hpc frame answers written
      simp only [step, helloInv, hf.shared, hf.hellos, hf.serial]
      exact h
    · simp only [step, inbound]
      exact h
  | allocate kind messageType payload =>
    simp only [step, allocate]
    split <;> exact h
  | command written | cancel | readError | hangup =>
    simp only [step, command, cancel, readError, hangup, turn_eq]
    repeat' split
    all_goals exact h
  | dial result =>
    simp only [step, dial]
    split
    · rename_i hpc
      -- the new transport has had no HELLO, and the word is still clear
      exact ⟨h.lowest, fun hcap => absurd ((negotiated_iff hpc).1 hn) hcap⟩
    · exact h
  | stamp t | enqueue t | resume t | abandon t | receive | restored | requestClose
  | restoreNext key written | restoreRead frame answers | restoreFail | connect | close =>
    simp only [step, stamp, enqueue, resume, abandon, dropGuard, receive, dropCommands, restored,
      requestClose, restoreNext, restoreRead, restoreFail, push]
    repeat' split
    all_goals exact h
  | register | deactivate | token | wake => exact h

/-! ## The slots -/

theorem length_entries {α β : Type} (m : HashMap α β) : m.entries.length = m.keys.length := by
  simp [AList.keys, List.keys]

theorem length_insert_le {α β : Type} [DecidableEq α] (m : HashMap α β) (k : α) (v : β) :
    (m.insert k v).entries.length ≤ m.entries.length + 1 := by
  rw [length_entries, length_entries, AList.keys_insert, List.length_cons]
  exact Nat.succ_le_succ (List.length_erase_le)

theorem length_insert_of_mem {α β : Type} [DecidableEq α] {m : HashMap α β} {k : α} (hk : k ∈ m)
    (v : β) : (m.insert k v).entries.length = m.entries.length := by
  have hmem : k ∈ m.keys := AList.mem_keys.1 hk
  have hpos : 0 < m.keys.length := List.length_pos_of_mem hmem
  rw [length_entries, length_entries, AList.keys_insert, List.length_cons,
    List.length_erase_of_mem hmem]
  omega

theorem length_erase_le {α β : Type} [DecidableEq α] (m : HashMap α β) (k : α) :
    (m.erase k).entries.length ≤ m.entries.length := by
  rw [length_entries, length_entries, AList.keys_erase]
  exact List.length_erase_le

section

variable {sh : Shared} {l : Loop}

/-- Only a request that finds room takes a slot. -/
theorem length_onCommand (hcorr : supervisorCorrelationEnabled sh = true)
    (h : l.correlated.entries.length ≤ sh.maxInFlight.toNat) (c : Command) (written : Result Unit)
    (hlive : (l.onCommand sh c written).result ≠ some .disconnected) :
    (l.onCommand sh c written).loop.correlated.entries.length ≤ sh.maxInFlight.toNat := by
  cases c with
  | request id generation messageType flags payload t =>
    have hreq := Loop.onRequest_requested (l := l) hcorr id generation messageType flags payload t
      written
    simp only [Loop.onCommand] at hlive ⊢
    generalize l.onRequest sh id generation messageType flags payload t written = turn at hreq hlive
    cases hreq with
    | stale | refused => exact h
    | written _ hroom => exact le_trans (length_insert_le _ _ _) hroom
    | failed => exact absurd rfl hlive
  | send id generation messageType payload t =>
    obtain ⟨effects, heq, -⟩ := Loop.onSend_sent sh l id generation messageType
      payload t written
    simp only [Loop.onCommand, heq]
    exact h
  | connect t => exact h
  | close t => exact Nat.zero_le _

/-- A cancellation keeps the slot it empties. -/
theorem length_onCancel (hl : l.Correlating) (id : UInt64) :
    (l.onCancel id).loop.correlated.entries.length ≤ l.correlated.entries.length := by
  have hc := Loop.onCancel_canceled hl id
  generalize l.onCancel id = turn at hc
  cases hc with
  | outstanding h =>
    have hmem : id ∈ l.correlated := AList.lookup_isSome.1 (by rw [h]; rfl)
    exact (length_insert_of_mem hmem _).le
  | early => exact le_rfl

theorem length_onFrame (hl : l.Correlating) (hcap : sh.capabilities ≠ 0) (frame : Bytes)
    (written : Result Unit)
    (hlive : (l.onFrame sh frame written).2.result ≠ some .disconnected) :
    (l.onFrame sh frame written).2.loop.correlated.entries.length ≤ l.correlated.entries.length := by
  have hf := (Loop.onFrame_framed hl hcap frame written).2
  generalize (l.onFrame sh frame written).2 = turn at hf hlive
  cases hf with
  | ended => exact absurd rfl hlive
  | ignored | published => exact le_rfl
  | answered => exact length_erase_le _ _

theorem encodeOutbound_ne (messageType : UInt16) (flags : UInt8) (id : UInt64) (payload : Bytes) :
    encodeOutbound sh messageType flags id payload ≠ .error inFlightError := by
  have hframe : tryEncodeFrame messageType flags id payload ≠ .error inFlightError := by
    unfold tryEncodeFrame
    intro h
    simp only at h
    repeat' split at h
    all_goals cases h
  unfold encodeOutbound
  cases hf : tryEncodeFrame messageType flags id payload with
  | error error =>
    rw [hf] at hframe
    exact hframe
  | ok frame =>
    simp only [bind, Except.bind, pure, Except.pure, throw, throwThe, MonadExceptOf.throw]
    split <;> simp [inFlightError]

/-- A refusal names its own error. -/
theorem mem_refuse {response : Option Ticket} {t : Ticket} {error error' : FitzError}
    (h : Effect.respond t (.error error') ∈ Loop.refuse response error) : error' = error := by
  cases response <;> simp_all [Loop.refuse]

theorem not_mem_failAll {t : Ticket} : Effect.respond t (.error inFlightError) ∉ l.failAll.2 := by
  simp [Loop.failAll, inFlightError]

/-- **A request is refused for the limit at the limit.** -/
theorem full_of_refused (hcorr : supervisorCorrelationEnabled sh = true) {c : Command}
    {written : Result Unit} {t : Ticket}
    (h : Effect.respond t (.error inFlightError) ∈ (l.onCommand sh c written).effects) :
    sh.maxInFlight.toNat ≤ l.correlated.entries.length := by
  by_contra hroom
  cases c with
  | request id generation messageType flags payload t' =>
    simp only [Loop.onCommand, Loop.onRequest] at h
    split at h
    · simp [Loop.next, inFlightError] at h
    · have htomb : Effect.respond t (.error inFlightError) ∉
          if id ∈ l.canceled then [Effect.release t'] else [] := by split <;> simp
      simp only [↓reduceIte, Loop.requestCorrelated, ge_iff_le, hroom] at h
      rcases List.mem_append.1 h with h | h
      · exact htomb h
      · split at h
        · rename_i error henc
          -- with room left the refusal would be an encoding error, which has another text
          have heq := mem_refuse h
          rw [← heq] at henc
          exact encodeOutbound_ne _ _ _ _ henc
        · have hrel : ∀ r, Effect.respond t (.error inFlightError) ∉ Loop.releaseOpt r := by
            intro r
            cases r <;> simp [Loop.releaseOpt]
          split at h
          · simp [Loop.next, hrel] at h
          · simp [Loop.finish, hrel, not_mem_failAll] at h
  | send id generation messageType payload t' =>
    simp only [Loop.onCommand, Loop.onSend] at h
    repeat' split at h
    all_goals simp [Loop.next] at h
  | connect t' => simp [Loop.onCommand, Loop.next] at h
  | close t' => simp [Loop.onCommand, Loop.finish, not_mem_failAll] at h

end

/-- The slots of the session loop stay within the limit in force. -/
theorem slots_step (s : Conn) (e : Event) (hb : Base s)
    (h : s.pc = .session → s.loop.correlated.entries.length ≤ s.shared.maxInFlight.toNat)
    (h' : (s.step cfg e).pc = .session) :
    (s.step cfg e).loop.correlated.entries.length ≤ (s.step cfg e).shared.maxInFlight.toNat := by
  rcases session_before s e h' with hpc | ⟨-, -, hloop⟩
  · by_cases he : inSession e = false
    · have hf := session_frame s e hb hpc he h'
      rw [hf.loop, hf.maxInFlight]
      exact h hpc
    · obtain ⟨hcap, hcorr, hl⟩ := (negotiated_iff hpc).1 hb.negotiated
      cases e with
      | command written =>
        cases hcs : s.commands with
        | nil =>
          simp only [step, command, hpc, hcs]
          exact h hpc
        | cons c cs =>
          obtain ⟨hf, -⟩ := command_frame cfg hpc hcs written
          simp only [step] at h' ⊢
          rw [hf.loop, hf.shared]
          exact length_onCommand hcorr (h hpc) c written (hf.live h')
      | cancel =>
        cases hcan : s.cancellations with
        | nil =>
          simp only [step, cancel, hpc, hcan]
          exact h hpc
        | cons p rest =>
          obtain ⟨hf, -⟩ := cancel_frame cfg hpc hcan
          simp only [step]
          rw [hf.loop, hf.shared]
          exact le_trans (length_onCancel hl p.1) (h hpc)
      | inbound frame answers written =>
        obtain ⟨hf, -⟩ := inbound_frame cfg hb.negotiated hpc frame answers written
        simp only [step] at h' ⊢
        rw [hf.loop, hf.shared]
        exact le_trans (length_onFrame hl hcap frame written (hf.live h')) (h hpc)
      | _ => exact absurd rfl he
  · -- a loop starts with empty maps
    rw [hloop]
    exact Nat.zero_le _

/-- What the atomic and the slots keep to in every reachable state. -/
structure LimitInv (cfg : Config) (s : Conn) : Prop where
  base : Base s
  hello : s.helloInv cfg
  slots : s.pc = .session → s.loop.correlated.entries.length ≤ s.shared.maxInFlight.toNat

theorem limitInv_run (cfg : Config) (es : List Event) :
    LimitInv cfg (run (Conn.step cfg) (.new cfg) es) :=
  run_inv (fun s e h => ⟨base_step s e h.base, helloInv_step s e h.base.negotiated h.hello,
      slots_step s e h.base h.slots⟩)
    ⟨base_new cfg, ⟨rfl, fun h => absurd rfl h⟩, by simp [Conn.new, Loop.new]⟩ es

end Conn

open Conn in
/-- **The limit of a session.** In every session of every run, with the HELLOs the
client accepted so far, this session's own last: its in-flight limit is that of
the configuration and its own HELLO if and only if no earlier HELLO was below
that; in any case it is never exceeded. -/
theorem session_limits (cfg : Config) (es : List Event)
    (hpc : (run (Conn.step cfg) (.new cfg) es).pc = .session) :
    ∃ earlier own, (run (Conn.step cfg) (.new cfg) es).hellos =
        earlier ++ [((run (Conn.step cfg) (.new cfg) es).serial, own)] ∧
      (LimitsOwn cfg (run (Conn.step cfg) (.new cfg) es) own ↔
        ∀ h ∈ earlier.map Prod.snd, sessionLimit cfg own ≤ h.toNat) := by
  have hinv := limitInv_run cfg es
  generalize run (Conn.step cfg) (.new cfg) es = s at hinv hpc
  obtain ⟨hcap, hcorr, -⟩ := (negotiated_iff hpc).1 hinv.base.negotiated
  obtain ⟨earlier, own, hsplit⟩ := hinv.hello.greeted hcap
  have hforce : s.shared.maxInFlight.toNat =
      min own.toNat (lowest cfg.capacity.toNat (earlier.map Prod.snd)) := by
    rw [hinv.hello.lowest, hsplit, List.map_append, List.map_singleton, lowest_concat]
  -- the limit in force is the session's own when the earlier ones do not matter
  have hiff : s.shared.maxInFlight.toNat = sessionLimit cfg own ↔
      ∀ h ∈ earlier.map Prod.snd, sessionLimit cfg own ≤ h.toNat := by
    have hle : sessionLimit cfg own ≤ lowest cfg.capacity.toNat (earlier.map Prod.snd) ↔
        ∀ h ∈ earlier.map Prod.snd, sessionLimit cfg own ≤ h.toNat := by
      rw [le_lowest]
      exact and_iff_right (min_le_left _ _)
    have hcapacity : lowest cfg.capacity.toNat (earlier.map Prod.snd) ≤ cfg.capacity.toNat :=
      (le_lowest.1 le_rfl).1
    rw [hforce, ← hle]
    unfold sessionLimit
    omega
  refine ⟨earlier, own, hsplit, fun h => hiff.1 h.inForce, fun h => ?_⟩
  have hlimit := hiff.2 h
  have hslots := hinv.slots hpc
  rw [hlimit] at hslots
  refine ⟨hlimit, hslots, fun c written t hmem => le_antisymm hslots ?_⟩
  rw [← hlimit]
  exact full_of_refused hcorr hmem

theorem session_limits_first :
    ∃ earlier own, (run (Conn.step ⟨4, ⟨true, 0⟩⟩) (.new ⟨4, ⟨true, 0⟩⟩) (firstSession 1)).hellos =
        earlier ++ [((run (Conn.step ⟨4, ⟨true, 0⟩⟩) (.new ⟨4, ⟨true, 0⟩⟩)
          (firstSession 1)).serial, own)] ∧
      (LimitsOwn ⟨4, ⟨true, 0⟩⟩ (run (Conn.step ⟨4, ⟨true, 0⟩⟩) (.new ⟨4, ⟨true, 0⟩⟩)
        (firstSession 1)) own ↔
        ∀ h ∈ earlier.map Prod.snd, sessionLimit ⟨4, ⟨true, 0⟩⟩ own ≤ h.toNat) :=
  session_limits ⟨4, ⟨true, 0⟩⟩ (firstSession 1) (by decide +kernel)

/-- A session whose HELLO allows one request, lost, and one whose HELLO allows
eight. -/
def narrowThenWide : List Event :=
  firstSession 1 ++ reopenRun 8 ++ enterRun

/-- The second session's own limit is four, and one is in force. -/
theorem limit_of_earlier_session :
    (run (Conn.step ⟨4, ⟨true, 0⟩⟩) (.new ⟨4, ⟨true, 0⟩⟩) narrowThenWide).pc = .session ∧
      (run (Conn.step ⟨4, ⟨true, 0⟩⟩) (.new ⟨4, ⟨true, 0⟩⟩) narrowThenWide).hellos = [(1, 1), (2, 8)] ∧
      ¬ LimitsOwn ⟨4, ⟨true, 0⟩⟩
        (run (Conn.step ⟨4, ⟨true, 0⟩⟩) (.new ⟨4, ⟨true, 0⟩⟩) narrowThenWide) 8 := by
  refine ⟨by decide +kernel, by decide +kernel, fun h => ?_⟩
  exact absurd h.inForce (by decide +kernel)

end Fitz

import Fitz.Proof.History

/-!
# Sessions and their generations

`sessions_run`: in every reachable state the session loops that ran, each with
the number of bumps it read its generation at, are in the order of their
transports and of strictly more bumps: no two sessions share a generation until
the counter wraps. A session ends by a loss, which bumps, or by a close, after
which none is opened.
-/

namespace Fitz

open Machine

/-! ## Where the supervisor stands -/

/-- No session loop is running or has just ended. -/
@[simp] def Pc.settled : Pc → Bool
  | .session | .lost | .closing _ | .done => false
  | _ => true

/-- In `open_session` or on the way from it into the session loop. -/
@[simp] def Pc.dials : Pc → Bool
  | .token | .dialing | .handshake | .opened | .restoring | .ready | .announcing | .entering => true
  | _ => false

/-- The transport is open, its session loop not yet entered. -/
@[simp] def Pc.numbered : Pc → Bool
  | .handshake | .opened | .restoring | .ready | .announcing | .entering => true
  | _ => false

/-- What the session loops so far, as `(transport, bumps)`, have to do with the
supervisor and the counters. -/
structure SessionsInv (sup : Sup) (commands : List Command) (sessions : List (ℕ × ℕ))
    (serial bumps : ℕ) (generation sessionGeneration : UInt64) : Prop where
  generation : generation = UInt64.ofNat bumps
  order : sessions.Pairwise fun a b => a.1 < b.1 ∧ a.2 < b.2
  bound : ∀ p ∈ sessions, p.1 ≤ serial ∧ p.2 ≤ bumps
  settled : sup.pc.settled = true → sup.closeRequested = true ∨ ∀ p ∈ sessions, p.2 < bumps
  dials : sup.pc.dials = true → ∀ p ∈ sessions, p.2 < bumps
  numbered : sup.pc.numbered = true → ∀ p ∈ sessions, p.1 < serial
  closing : ∀ t, sup.pc = .closing t → sup.closeRequested = true
  commands : ∀ t, Command.close t ∈ commands → sup.closeRequested = true
  live : sup.pc = .session → ∃ earlier b, sessions = earlier ++ [(serial, b)] ∧
    sessionGeneration = UInt64.ofNat b

section

variable {policy : ReconnectPolicy} {e : SupEvent} {sup sup' : Sup} {acts : List Act}
  {commands commands' : List Command} {sessions : List (ℕ × ℕ)} {serial bumps : ℕ}
  {generation g : UInt64}

/-- Unless it runs on its own, the supervisor enters no session and bumps nothing,
and opens a transport only by a dial. -/
theorem move_of_ne_advance (hm : Move policy e sup sup' acts) (ha : e ≠ .advance) :
    (sup'.pc = .handshake → sup.pc = .handshake ∨ e = .dial (.ok ()) ∧ sup.pc = .dialing) ∧
      (sup.pc = .lost → sup'.pc = .lost) ∧ (sup'.pc = .session → sup.pc = .session) := by
  cases hm with
  | fail error hpc => rcases hpc with rfl | rfl | rfl <;> simp
  | _ => simp_all

theorem move_advance (hm : Move policy .advance sup sup' acts) :
    (sup'.pc = .handshake → sup.pc = .handshake) ∧
      (sup.pc = .lost → sup'.pc = .lost ∨ sup'.pc = .retrying) ∧
      (sup'.pc = .session → sup.pc = .session ∨ sup.pc = .entering) ∧
      sup'.closeRequested = sup.closeRequested := by
  cases hm with
  | fail error hpc => rcases hpc with rfl | rfl | rfl <;> simp
  | stay => exact ⟨id, .inl, .inl, rfl⟩
  | _ => simp

/-- A transition that opens, enters and bumps nothing. -/
theorem SessionsInv.move (h : SessionsInv sup commands sessions serial bumps generation g)
    (hm : Move policy e sup sup' acts) (hdial : sup'.pc = .handshake → sup.pc = .handshake)
    (hbump : sup.pc = .lost → sup'.pc = .lost) (henter : sup'.pc = .session → sup.pc = .session)
    (hhangup : e = .hangup → sup.pc ≠ .session)
    (hclose : ∀ t, e = .close t → sup.closeRequested = true) :
    SessionsInv sup' commands sessions serial bumps generation g := by
  obtain ⟨hgen, horder, hbound, hset, hdials, hnum, hclosing, hcmds, hlive⟩ := h
  cases hm with
  | stay => exact ⟨hgen, horder, hbound, hset, hdials, hnum, hclosing, hcmds, hlive⟩
  | requestClose =>
    exact ⟨hgen, horder, hbound, fun _ => .inl rfl, hdials, hnum, fun _ _ => rfl, fun _ _ => rfl, hlive⟩
  | openSession =>
    have hfresh : ∀ p ∈ sessions, p.2 < bumps := (hset rfl).resolve_left (by simp)
    exact ⟨hgen, horder, hbound, fun _ => .inr hfresh, fun _ => hfresh, by simp, by simp, hcmds, by simp⟩
  | connect => cases hdial rfl
  | enter => cases henter rfl
  | bump => cases hbump rfl
  | hangup => exact absurd rfl (hhangup rfl)
  | close t =>
    exact ⟨hgen, horder, hbound, by simp, by simp, by simp, fun _ _ => hclose t rfl, hcmds, by simp⟩
  | closed t =>
    exact ⟨hgen, horder, hbound, fun _ => .inl (hclosing t rfl), by simp, by simp, by simp, hcmds,
      by simp⟩
  | lose | closeIdle | hangupIdle =>
    exact ⟨hgen, horder, hbound, by simp, by simp, by simp, by simp, hcmds, by simp⟩
  | connected => exact ⟨hgen, horder, hbound, hset, hdials, hnum, hclosing, hcmds, hlive⟩
  | dial =>
    exact ⟨hgen, horder, hbound, fun _ => hset rfl, fun _ => hdials rfl, by simp, by simp, hcmds,
      by simp⟩
  | hello | restore | restored | resetIds | announce =>
    exact ⟨hgen, horder, hbound, fun _ => hset rfl, fun _ => hdials rfl, fun _ => hnum rfl, by simp, hcmds,
      by simp⟩
  | fail error hpc =>
    exact ⟨hgen, horder, hbound, fun _ => hset (by rcases hpc with rfl | rfl | rfl <;> rfl), by simp,
      by simp, by simp, hcmds, by simp⟩
  | call | start | closedBefore | closedAfter | giveUp | retry | exhaust | sleep | wake =>
    exact ⟨hgen, horder, hbound, fun _ => hset rfl, by simp, by simp, by simp, hcmds, by simp⟩

/-- The supervisor returned. -/
theorem SessionsInv.done {g' : UInt64}
    (h : SessionsInv sup commands sessions serial bumps generation g) (hpc : sup'.pc = .done)
    (hclose : sup'.closeRequested = sup.closeRequested) :
    SessionsInv sup' commands sessions serial bumps generation g' where
  generation := h.generation
  order := h.order
  bound := h.bound
  settled hs := by simp [hpc, Pc.settled] at hs
  dials hs := by simp [hpc, Pc.dials] at hs
  numbered hs := by simp [hpc, Pc.numbered] at hs
  closing t ht := by simp [hpc] at ht
  commands t ht := hclose.trans (h.commands t ht)
  live hs := by simp [hpc] at hs

end

namespace Conn

variable {cfg : Config} {s : Conn}

def sessionsInv (s : Conn) : Prop :=
  SessionsInv s.task.sup s.commands s.sessions s.serial s.bumps s.shared.generation
    s.loop.sessionGeneration

/-- A step of the supervisor on its own, by an event that opens, enters and bumps
nothing. -/
theorem sessionsInv_supStep (h : s.sessionsInv) {e : SupEvent} (ha : e ≠ .advance)
    (hdial : e = .dial (.ok ()) → s.pc ≠ .dialing) (hhangup : e = .hangup → s.pc ≠ .session)
    (hclose : ∀ t, e = .close t → s.task.sup.closeRequested = true) :
    (s.supStep cfg e).sessionsInv := by
  have hm := step_move cfg.reconnect s.task.sup e
  obtain ⟨hshake, hlost, henter⟩ := move_of_ne_advance hm ha
  exact h.move hm (fun h' => (hshake h').resolve_right fun hd => hdial hd.1 hd.2) hlost henter
    hhangup hclose

/-- A turn of the session loop keeps the generation it was started with. -/
theorem sessionsInv_turn (h : s.sessionsInv) (hpc : s.pc = .session) {t : Turn}
    (ht : GoesRound s.loop t.loop ∨ t.result = some .disconnected)
    {origin : Origin} : (s.turn cfg origin t).sessionsInv := by
  rw [turn_eq]
  by_cases hd : t.result = some .disconnected
  · have hlost : (s.supStep cfg .disconnected).sessionsInv :=
      sessionsInv_supStep h (by simp) (by simp) (by simp) (by simp)
    have hnot : (s.task.step cfg.reconnect .disconnected).sup.pc ≠ .session := by
      have hidle := afterTurn_disconnected cfg hpc
      intro hs
      rw [show (afterTurn cfg s.task (some .disconnected)).sup.pc = .session from hs] at hidle
      cases hidle
    rw [hd]
    exact { hlost with live := fun hs => absurd hs hnot }
  · have hloop := (ht.resolve_right hd).sessionGeneration
    have htask : afterTurn cfg s.task t.result = s.task := by
      unfold afterTurn
      split
      · exact absurd (by assumption) hd
      · rfl
    simp only [sessionsInv, htask, hloop]
    exact h

theorem ofNat_succ (n : ℕ) : UInt64.ofNat n + 1 = UInt64.ofNat (n + 1) := by
  rw [UInt64.ofNat_add]
  rfl

/-- A bump leaves every session so far behind. -/
theorem sessionsInv_bump (h : s.sessionsInv) : s.bump.sessionsInv where
  generation := by
    simp only [bump, h.generation, ofNat_succ]
  order := h.order
  bound p hp := ⟨(h.bound p hp).1, Nat.le_succ_of_le (h.bound p hp).2⟩
  settled _ := .inr fun p hp => Nat.lt_succ_of_le (h.bound p hp).2
  dials _ := fun p hp => Nat.lt_succ_of_le (h.bound p hp).2
  numbered := h.numbered
  closing := h.closing
  commands := h.commands
  live := h.live

theorem sessionsInv_advance (h : s.sessionsInv) : (s.advance cfg).sessionsInv := by
  have hm := step_move cfg.reconnect s.task.sup .advance
  set task := s.task.step cfg.reconnect .advance with htask
  have hsup : (s.task.sup.step cfg.reconnect .advance).1 = task.sup := rfl
  rw [hsup] at hm
  obtain ⟨hshake, hlost, henter, hclose⟩ := move_advance hm
  have hcmds : ∀ t, Command.close t ∈ s.commands → task.sup.closeRequested = true :=
    fun t ht => hclose.trans (h.commands t ht)
  unfold advance
  simp only [supStep, pc, ← htask]
  split
  · rename_i hpc hpc'
    exact h.move hm hshake (by simp [hpc]) (by simp [hpc']) (by simp) (by simp)
  · rename_i hpc hpc'
    exact h.move hm hshake (by simp [hpc]) (by simp [hpc']) (by simp) (by simp)
  · rename_i hpc hpc'
    exact h.move hm hshake (by simp [hpc]) (by simp [hpc']) (by simp) (by simp)
  · rename_i hpc hpc'
    -- the new session comes after all others, on a transport and a bump of its own
    have hnew := h.numbered (by rw [hpc]; rfl)
    have hfresh := h.dials (by rw [hpc]; rfl)
    refine ⟨h.generation, ?_, ?_, ?_, ?_, ?_, ?_, hcmds, fun _ => ⟨s.sessions, s.bumps, rfl, h.generation⟩⟩
    · refine List.pairwise_append.2 ⟨h.order, List.pairwise_singleton _ _, fun a ha b hb => ?_⟩
      rw [List.mem_singleton.1 hb]
      exact ⟨hnew a ha, hfresh a ha⟩
    · intro p hp
      rcases List.mem_append.1 hp with hp | hp
      · exact h.bound p hp
      · rw [List.mem_singleton.1 hp]
        exact ⟨le_rfl, le_rfl⟩
    all_goals simp [hpc', Pc.settled, Pc.dials, Pc.numbered]
  · rename_i hpc hpc'
    have hbumped : ∀ p ∈ s.sessions, p.2 < s.bumps + 1 := fun p hp => Nat.lt_succ_of_le (h.bound p hp).2
    refine ⟨?_, h.order, fun p hp => ⟨(h.bound p hp).1, (hbumped p hp).le⟩, fun _ => .inr hbumped,
      fun _ => hbumped, ?_, ?_, hcmds, ?_⟩
    · simp only [bump, h.generation, ofNat_succ]
    all_goals simp [bump, hpc', Pc.numbered]
  · rename_i h1 h2 h3 hentering hbump
    refine h.move hm hshake (fun hl => (hlost hl).resolve_right (hbump hl))
      (fun hs => (henter hs).resolve_right fun he => hentering he hs) (by simp) (by simp)

theorem sessionsInv_command (h : s.sessionsInv) (hn : s.negotiated) (written : Result Unit) :
    (s.command cfg written).sessionsInv := by
  unfold command
  split
  · rename_i c cs hpc hcs
    obtain ⟨-, hcorr, hl⟩ := (negotiated_iff hpc).1 hn
    have hrest : ∀ log, ({ s with commands := cs, log := log } : Conn).sessionsInv := fun log =>
      { h with commands := fun t ht => h.commands t (hcs ▸ List.mem_cons_of_mem _ ht) }
    have hturn : ∀ log origin, (({ s with commands := cs, log := log } : Conn).turn cfg origin
        (s.loop.onCommand s.shared c written)).sessionsInv := fun log origin =>
      sessionsInv_turn (hrest log) (by exact hpc) (onCommand_goesRound hl hcorr c written)
    split
    · exact sessionsInv_supStep (hturn _ _) (by simp) (by simp) (by simp) (by simp)
    · rename_i t
      refine sessionsInv_supStep (hturn _ _) (by simp) (by simp) (by simp) fun t' _ => ?_
      rw [turn_eq]
      exact h.commands t (by simp [hcs])
    · exact hturn _ _
    · exact hturn _ _
  · exact h

/-- The senders are gone: the loop returns, and the task with it. -/
theorem sessionsInv_hangup (h : s.sessionsInv) : (s.hangup cfg).sessionsInv := by
  unfold hangup
  split
  · rename_i hpc hcs
    have hdone : ∀ task : Supervised, task.sup.pc = .session →
        ((task.step cfg.reconnect .hangup).step cfg.reconnect .hangup).sup.pc = .done ∧
        ((task.step cfg.reconnect .hangup).step cfg.reconnect .hangup).sup.closeRequested =
          task.sup.closeRequested := by
      rintro ⟨⟨pc, n, i, c⟩, st, acts⟩ hs
      cases hs
      exact ⟨rfl, rfl⟩
    obtain ⟨hpc', hclose⟩ := hdone s.task hpc
    simp only [turn_eq]
    exact h.done hpc' hclose
  · rename_i hpc _
    exact sessionsInv_supStep h (by simp) (by simp) (by simp [hpc]) (by simp)
  · exact h

theorem sessionsInv_receive (h : s.sessionsInv) : (s.receive cfg).sessionsInv := by
  unfold receive
  split
  · rename_i c cs hpc hcs
    have hrest : ({ s with commands := cs } : Conn).sessionsInv :=
      { h with commands := fun t ht => h.commands t (hcs ▸ List.mem_cons_of_mem _ ht) }
    split
    · exact sessionsInv_supStep hrest (by simp) (by simp) (by simp) (by simp)
    · rename_i t
      have hclose : s.task.sup.closeRequested = true := h.commands t (by simp [hcs])
      have hshut : (({ s with commands := cs } : Conn).supStep cfg (.close t)).sessionsInv :=
        sessionsInv_supStep hrest (by simp) (by simp) (by simp) fun _ _ => hclose
      exact { hshut with commands := fun _ hmem => absurd hmem List.not_mem_nil }
    · exact hrest
    · exact hrest
  · exact h

/-- A call's command is no `Close`. -/
theorem sessionsInv_enqueue (h : s.sessionsInv) (t : Ticket) : (s.enqueue cfg t).sessionsInv := by
  unfold enqueue
  split
  · rename_i call _
    split
    · split
      · exact h
      · refine { h with commands := fun t' ht' => ?_ }
        rcases List.mem_append.1 ht' with ht' | ht'
        · exact h.commands t' ht'
        · simp only [commandOf] at ht'
          split at ht' <;> simp at ht'
    · exact h
  · exact h

/-- A dial that succeeds numbers its transport after all sessions so far. -/
theorem sessionsInv_dial (h : s.sessionsInv) (result : Result Unit) :
    (s.dial cfg result).sessionsInv := by
  unfold dial
  split
  · rename_i hpc
    have hsup : (s.task.step cfg.reconnect (.dial (.ok ()))).sup =
        { s.task.sup with pc := .handshake } := by
      simp only [pc] at hpc
      simp only [Supervised.step, Sup.step]
      rw [hpc]
      rfl
    have hfresh := h.dials (by rw [show s.task.sup.pc = .dialing from hpc]; rfl)
    simp only [sessionsInv, supStep, hsup]
    exact {
      generation := h.generation
      order := h.order
      bound := fun p hp => ⟨Nat.le_succ_of_le (h.bound p hp).1, (h.bound p hp).2⟩
      settled := fun _ => .inr hfresh
      dials := fun _ => hfresh
      numbered := fun _ p hp => Nat.lt_succ_of_le (h.bound p hp).1
      closing := by simp
      commands := h.commands
      live := by simp }
  · rename_i hne
    exact sessionsInv_supStep h (by simp) (fun heq hpc => hne hpc (SupEvent.dial.inj heq)) (by simp)
      (by simp)

/-- **One step keeps sessions apart.** -/
theorem sessionsInv_step (s : Conn) (e : Event) (hn : s.negotiated) (h : s.sessionsInv) :
    (s.step cfg e).sessionsInv := by
  cases e with
  | advance => exact sessionsInv_advance h
  | command written => exact sessionsInv_command h hn written
  | cancel =>
    simp only [step, cancel]
    split
    · rename_i id cause rest hpc hcan
      obtain ⟨-, -, hl⟩ := (negotiated_iff hpc).1 hn
      refine sessionsInv_turn (by exact h) (by exact hpc) ?_
      exact .inl (onCancel_goesRound hl id)
    · exact h
  | inbound frame answers written =>
    simp only [step, inbound]
    split
    · rename_i hpc
      obtain ⟨hcap, -, hl⟩ := (negotiated_iff hpc).1 hn
      rw [(Loop.onFrame_framed hl hcap frame written).1]
      refine sessionsInv_turn (by exact h) (by exact hpc) ?_
      exact onFrame_goesRound hl hcap frame written
    · exact h
  | readError =>
    simp only [step, readError]
    split
    · rename_i hpc
      exact sessionsInv_turn h hpc (.inr rfl)
    · exact h
  | hangup => exact sessionsInv_hangup h
  | receive => exact sessionsInv_receive h
  | requestClose =>
    simp only [step, requestClose]
    split
    · exact h
    · exact sessionsInv_bump (sessionsInv_supStep h (by simp) (by simp) (by simp) (by simp))
  | connect =>
    simp only [step, push]
    split
    · exact h
    · exact { h with commands := fun t ht => h.commands t (by simpa using ht) }
  | close =>
    simp only [step, push]
    split
    · rename_i hreq
      split
      · exact h
      · exact { h with commands := fun _ _ => hreq }
    · exact h
  | enqueue t => exact sessionsInv_enqueue h t
  | dial result => exact sessionsInv_dial h result
  | auth answer =>
    simp only [step, auth]
    split
    · split
      · exact sessionsInv_supStep h (by simp) (by simp) (by simp) (by simp)
      · rename_i hok
        obtain ⟨mask, hello, -, rfl⟩ := settleAuthentication_ok hok
        exact sessionsInv_supStep h (e := .auth (.ok ())) (by simp) (by simp) (by simp) (by simp)
    · exact h
  | restored =>
    simp only [step, restored]
    split
    · exact sessionsInv_supStep h (by simp) (by simp) (by simp) (by simp)
    · exact h
  | token result | wake => exact sessionsInv_supStep h (by simp) (by simp) (by simp) (by simp)
  | allocate kind messageType payload =>
    simp only [step, allocate]
    split <;> exact h
  | stamp t | resume t | abandon t | restoreNext cell written | restoreRead frame answers
  | restoreFail =>
    simp only [step, stamp, resume, abandon, dropGuard, restoreNext, restoreRead, restoreFail]
    repeat' split
    all_goals exact h
  | register | deactivate => exact h

/-- **Sessions are apart in every run.** -/
theorem sessions_run (cfg : Config) (es : List Event) :
    (run (Conn.step cfg) (.new cfg) es).sessionsInv :=
  (run_inv (I := fun s : Conn => s.negotiated ∧ s.sessionsInv)
    (fun s e h => ⟨negotiated_step s e h.1, sessionsInv_step s e h.1 h.2⟩)
    ⟨negotiated_new cfg, rfl, List.Pairwise.nil, nofun, fun _ => .inr nofun, nofun, nofun, nofun,
      nofun, nofun⟩ es).2

/-- Before the counter wraps, a generation names one session. -/
theorem session_of_generation (h : s.sessionsInv) (hwrap : s.bumps < 2 ^ 64) {p q : ℕ × ℕ}
    (hp : p ∈ s.sessions) (hq : q ∈ s.sessions)
    (heq : UInt64.ofNat p.2 = UInt64.ofNat q.2) : p = q := by
  have hnat : p.2 = q.2 := by
    have hp2 := (h.bound p hp).2
    have hq2 := (h.bound q hq).2
    have := congrArg UInt64.toNat heq
    simp only [UInt64.toNat_ofNat'] at this
    omega
  have hnodup : (s.sessions.map Prod.snd).Nodup :=
    List.pairwise_map.2 (h.order.imp fun hlt => Nat.ne_of_lt hlt.2)
  exact List.inj_on_of_nodup_map hnodup hp hq hnat

/-- Bumps are never taken back. -/
theorem bumps_step (cfg : Config) (s : Conn) (e : Event) : s.bumps ≤ (s.step cfg e).bumps := by
  cases e with
  | advance =>
    have ha := advance_advanced cfg s
    simp only [step]
    generalize s.advance cfg = s' at ha
    cases ha with
    | lose => exact Nat.le_succ _
    | _ => exact le_rfl
  | requestClose =>
    simp only [step, requestClose]
    split
    · exact le_rfl
    · exact Nat.le_succ _
  | command written | cancel | inbound frame answers written | readError | hangup =>
    simp only [step, command, cancel, inbound, readError, hangup, turn_eq]
    repeat' split
    all_goals exact le_rfl
  | allocate kind messageType payload =>
    simp only [step, allocate]
    split <;> exact le_rfl
  | stamp t | enqueue t | resume t | abandon t | connect | close | receive | dial result
  | auth answer | restoreNext cell written | restoreRead frame answers | restoreFail | restored =>
    simp only [step, stamp, enqueue, resume, abandon, dropGuard, push, receive, dial, auth,
      restoreNext, restoreRead, restoreFail, restored]
    repeat' split
    all_goals exact le_rfl
  | register | deactivate | token | wake => exact le_rfl

end Conn

end Fitz

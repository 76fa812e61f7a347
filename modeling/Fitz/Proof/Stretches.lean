import Fitz.Proof.Wiring

/-!
# From stretch to stretch

`stretch_step`: what a step of the connection does to the stretch of
`connect_and_run` it is in. It stays, gives the session up, or goes on to the next
stretch by the one event that ends this one. `untouched_step` says which events
leave the transport and the session loop as they are.
-/

namespace Fitz

namespace Conn

variable {cfg : Config} {s : Conn}

/-- The stretch after the event `e` in `s`. -/
inductive Stretched (s : Conn) (e : Event) : Stretch → Prop
  | same : Stretched s e s.stretch
  | idle : Stretched s e .idle
  | negotiating (he : e = .advance) : Stretched s e .dialing
  | dialed (he : e = .dial (.ok ())) (hpc : s.pc = .dialing) : Stretched s e .handshaking
  | greeted {answer : Result Bytes} {shared : Shared} (he : e = .auth answer)
      (hpc : s.pc = .handshake) (hok : settleAuthentication s.shared answer = .ok shared) :
      Stretched s e .opened
  | collected (he : e = .advance) (hpc : s.pc = .opened) : Stretched s e .restoring
  | restored (he : e = .restored) (hpc : s.pc = .restoring) (hcur : s.current = none)
      (htodo : s.todo = []) : Stretched s e .ready
  | announced (he : e = .advance) (hpc : s.pc = .ready) : Stretched s e .announced
  | entered (he : e = .advance) (hpc : s.pc = .entering) : Stretched s e .session

theorem Stretched.of_or {e : Event} {st : Stretch} (h : st = s.stretch ∨ st = .idle) :
    Stretched s e st := by
  rcases h with rfl | rfl
  · exact .same
  · exact .idle

theorem Stretched.cast {e : Event} {s' : Conn} {st : Stretch} (h : Stretched s e st)
    (hst : s'.stretch = st) : Stretched s e s'.stretch := hst ▸ h

/-- The supervisor handles an event that does not end a stretch by going on. -/
theorem Stretched.quiet {e : Event} {e' : SupEvent} (s' : Conn) (hs : s'.stretch = s.stretch)
    (ha : e' ≠ .advance) (hr : e' ≠ .restored) (hauth : e' ≠ .auth (.ok ()))
    (hdial : e' ≠ .dial (.ok ())) : Stretched s e (s'.supStep cfg e').stretch := by
  have h : (s'.supStep cfg e').stretch = s'.stretch ∨ (s'.supStep cfg e').stretch = .idle :=
    supStep_stretch ha hr hauth hdial
  rw [hs] at h
  exact .of_or h

theorem stretched_advance (s : Conn) : Stretched s .advance (s.advance cfg).stretch := by
  have ha := advance_advanced cfg s
  generalize s.advance cfg = s' at ha
  cases ha with
  | plain hst => exact .of_or hst
  | negotiate h' => exact Stretched.cast (.negotiating rfl) (congrArg Pc.stretch h')
  | collect h h' => exact Stretched.cast (.collected rfl h) (congrArg Pc.stretch h')
  | restart h h' => exact Stretched.cast (.announced rfl h) (congrArg Pc.stretch h')
  | enter h h' => exact Stretched.cast (.entered rfl h) (congrArg Pc.stretch h')
  | lose h' => exact .of_or (.inr h')

/-- A turn of the session loop, whatever it wrote. -/
theorem stretched_turn {e : Event} (origin : Origin) (t : Turn) {s' : Conn}
    (hs : s'.task = s.task) : Stretched s e (s'.turn cfg origin t).stretch := by
  rw [turn_eq]
  have h := afterTurn_stretch cfg s'.task t.result
  rw [hs] at h
  exact .of_or (hs ▸ h)

/-- **From stretch to stretch.** -/
theorem stretch_step (cfg : Config) (s : Conn) (e : Event) :
    Stretched s e (s.step cfg e).stretch := by
  cases e with
  | advance => exact stretched_advance s
  | dial result =>
    simp only [step, dial]
    split
    · rename_i hpc
      exact Stretched.cast (.dialed rfl hpc) (congrArg Pc.stretch (supStep_dial hpc))
    · exact .of_or (supStep_dial_ne (by assumption))
  | auth answer =>
    simp only [step, auth]
    split
    · rename_i hpc
      split
      · exact .quiet s rfl (by simp) (by simp) (by simp) (by simp)
      · rename_i shared hok
        exact Stretched.cast (.greeted rfl hpc hok) (congrArg Pc.stretch (supStep_auth hpc))
    · exact .same
  | restored =>
    simp only [step, restored]
    split
    · rename_i hcur htodo
      by_cases hpc : s.pc = .restoring
      · exact Stretched.cast (.restored rfl hpc hcur htodo)
          (congrArg Pc.stretch (supStep_restored hpc))
      · exact .of_or (supStep_restored_ne hpc)
    · exact .same
  | command written =>
    simp only [step, command]
    split
    · split
      · simp only [turn_eq, Loop.onCommand, Loop.next, afterTurn]
        exact .quiet { s with commands := _, loop := _, answers := _, unanswered := _, log := _ } rfl
          (by simp) (by simp) (by simp) (by simp)
      · simp only [turn_eq, Loop.onCommand, Loop.finish, afterTurn]
        exact .quiet { s with commands := _, loop := _, answers := _, unanswered := _, log := _ } rfl
          (by simp) (by simp) (by simp) (by simp)
      · exact stretched_turn _ _ rfl
      · exact stretched_turn _ _ rfl
    · exact .same
  | cancel =>
    simp only [step, cancel]
    split
    · exact stretched_turn _ _ rfl
    · exact .same
  | inbound frame answers written =>
    simp only [step, inbound]
    split
    · exact stretched_turn _ _ rfl
    · exact .same
  | readError =>
    simp only [step, readError]
    split
    · exact stretched_turn _ _ rfl
    · exact .same
  | hangup =>
    simp only [step, hangup]
    split
    · simp only [turn_eq, Loop.onHangup, Loop.finish, afterTurn]
      -- two steps of the task: the loop returns, and the channel is closed
      have hup : ∀ s' : Conn, (s'.supStep cfg .hangup).stretch = s'.stretch ∨
          (s'.supStep cfg .hangup).stretch = .idle :=
        fun s' => supStep_stretch (by simp) (by simp) (by simp) (by simp)
      refine .of_or ?_
      rcases hup s with hst | hst
      · rcases hup (s.supStep cfg .hangup) with hst' | hst'
        · exact .inl (hst'.trans hst)
        · exact .inr hst'
      · rcases hup (s.supStep cfg .hangup) with hst' | hst'
        · exact .inr (hst'.trans hst)
        · exact .inr hst'
    · exact .quiet s rfl (by simp) (by simp) (by simp) (by simp)
    · exact .same
  | receive =>
    simp only [step, receive]
    split
    · split
      · exact .quiet { s with commands := _ } rfl (by simp) (by simp) (by simp) (by simp)
      · exact .quiet { s with commands := _ } rfl (by simp) (by simp) (by simp) (by simp)
      · exact .same
      · exact .same
    · exact .same
  | token result => exact .quiet s rfl (by simp) (by simp) (by simp) (by simp)
  | wake => exact .quiet s rfl (by simp) (by simp) (by simp) (by simp)
  | requestClose =>
    simp only [step, requestClose]
    split
    · exact .same
    · exact .quiet s rfl (by simp) (by simp) (by simp) (by simp)
  | allocate kind messageType payload =>
    simp only [step, allocate]
    split <;> exact .same
  | stamp t | enqueue t | resume t | abandon t | connect | close | restoreFail
  | restoreNext cell written | restoreRead frame answers =>
    simp only [step, stamp, enqueue, resume, abandon, dropGuard, push, restoreFail, restoreNext,
      restoreRead]
    repeat' split
    all_goals exact .same
  | register | deactivate => exact .same

/-- A handshake begins with a transport. -/
theorem handshaking_before {e : Event} (h : (s.step cfg e).stretch = .handshaking) :
    s.stretch = .handshaking ∨ e = .dial (.ok ()) ∧ s.pc = .dialing := by
  have hst := stretch_step cfg s e
  generalize (s.step cfg e).stretch = st at hst h
  cases hst with
  | same => exact .inl h
  | dialed he hpc => exact .inr ⟨he, hpc⟩
  | _ => cases h

/-! ## Events beside the transport -/

/-- The events that read and write nothing, and in which the loop does not run. -/
def aside : Event → Bool
  | .stamp _ | .enqueue _ | .resume _ | .abandon _ | .connect | .requestClose | .close
  | .register .. | .deactivate _ | .receive | .token _ | .auth _ | .restored | .wake => true
  | _ => false

/-- What such an event `e` leaves as it is. -/
structure Untouched (s : Conn) (e : Event) (s' : Conn) : Prop where
  loop : s'.loop = s.loop
  current : s'.current = s.current
  issued : s'.issued = s.issued
  epoch : s'.epoch = s.epoch
  unanswered : s'.unanswered = s.unanswered
  capabilities : (∀ answer, e ≠ .auth answer) → s'.shared.capabilities = s.shared.capabilities

theorem untouched_step (cfg : Config) (s : Conn) {e : Event} (he : aside e = true) :
    Untouched s e (s.step cfg e) := by
  cases e with
  | auth answer =>
    have hcap : ∀ {p : Prop}, (∀ answer', Event.auth answer ≠ .auth answer') → p :=
      fun h => absurd rfl (h answer)
    simp only [step, auth]
    repeat' split
    all_goals exact ⟨rfl, rfl, rfl, rfl, rfl, hcap⟩
  | stamp t | enqueue t | resume t | abandon t | connect | requestClose | close | receive
  | restored =>
    simp only [step, stamp, enqueue, resume, abandon, dropGuard, push, requestClose, receive, restored]
    repeat' split
    all_goals exact ⟨rfl, rfl, rfl, rfl, rfl, fun _ => rfl⟩
  | register | deactivate | token | wake => exact ⟨rfl, rfl, rfl, rfl, rfl, fun _ => rfl⟩
  | _ => cases he

end Conn

end Fitz

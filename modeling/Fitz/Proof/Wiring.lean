import Fitz.Model.Connection
import Fitz.Proof.Moves
import Fitz.Proof.Turns

/-!
# How a step changes the connection

The supervisor's program counters in the stretches the connection's invariants
speak of, and the effects of a turn as one update of the state. `task_run`: the
supervisor task of a connection is a run of the supervisor, so what holds of every
such run holds of every connection.
-/

namespace Fitz

open Machine

/-! ## Stretches of `connect_and_run` -/

inductive Stretch
  | idle
  | dialing
  | handshaking
  | opened
  | restoring
  | ready
  | announced
  | session
  deriving DecidableEq

def Pc.stretch : Pc → Stretch
  | .token | .dialing => .dialing
  | .handshake => .handshaking
  | .opened => .opened
  | .restoring => .restoring
  | .ready => .ready
  | .announcing | .entering => .announced
  | .session => .session
  | _ => .idle

variable {policy : ReconnectPolicy}

/-- A transition stays in its stretch, leaves `connect_and_run`'s session, or
goes on to the next stretch by the event that ends this one. -/
theorem move_stretch {e : SupEvent} {s s' : Sup} {acts : List Act} (hm : Move policy e s s' acts) :
    s'.pc.stretch = s.pc.stretch ∨ s'.pc.stretch = .idle ∨
      e = .advance ∧ s.pc = .checking ∧ s'.pc = .token ∨
      e = .dial (.ok ()) ∧ s.pc = .dialing ∧ s'.pc = .handshake ∨
      e = .auth (.ok ()) ∧ s.pc = .handshake ∧ s'.pc = .opened ∨
      e = .advance ∧ s.pc = .opened ∧ s'.pc = .restoring ∨
      e = .restored ∧ s.pc = .restoring ∧ s'.pc = .ready ∨
      e = .advance ∧ s.pc = .ready ∧ s'.pc = .announcing ∨
      e = .advance ∧ s.pc = .entering ∧ s'.pc = .session := by
  cases hm <;> simp [Pc.stretch]

namespace Conn

variable {cfg : Config} {s : Conn}

def stretch (s : Conn) : Stretch := s.pc.stretch

/-- Events other than those that end a stretch by going on. -/
theorem supStep_stretch {e : SupEvent} (ha : e ≠ .advance) (hr : e ≠ .restored)
    (hauth : e ≠ .auth (.ok ())) (hdial : e ≠ .dial (.ok ())) :
    (s.supStep cfg e).stretch = s.stretch ∨ (s.supStep cfg e).stretch = .idle := by
  rcases move_stretch (step_move cfg.reconnect s.task.sup e) with h | h | h | h | h | h |
    h | h | h
  · exact .inl h
  · exact .inr h
  all_goals first
    | exact absurd h.1 ha
    | exact absurd h.1 hr
    | exact absurd h.1 hauth
    | exact absurd h.1 hdial

theorem supStep_auth (hpc : s.pc = .handshake) :
    (s.supStep cfg (.auth (.ok ()))).pc = .opened := by
  have hstep : s.task.sup.step cfg.reconnect (.auth (.ok ())) = s.task.sup.goto .opened [] := by
    unfold Sup.step
    simp only [pc] at hpc
    rw [hpc]
    rfl
  simp [pc, supStep, Supervised.step, hstep, Sup.goto]

theorem supStep_dial (hpc : s.pc = .dialing) : (s.supStep cfg (.dial (.ok ()))).pc = .handshake := by
  have hstep : s.task.sup.step cfg.reconnect (.dial (.ok ())) =
      s.task.sup.goto .handshake [.publish .authenticating] := by
    unfold Sup.step
    simp only [pc] at hpc
    rw [hpc]
    rfl
  simp [pc, supStep, Supervised.step, hstep, Sup.goto]

/-- Only a dial that succeeds, in its place, opens a transport. -/
theorem supStep_dial_ne {result : Result Unit} (h : s.pc = .dialing → result = .ok () → False) :
    (s.supStep cfg (.dial result)).stretch = s.stretch ∨
      (s.supStep cfg (.dial result)).stretch = .idle := by
  rcases move_stretch (step_move cfg.reconnect s.task.sup (.dial result)) with
    h' | h' | h' | h' | h' | h' | h' | h' | h'
  · exact .inl h'
  · exact .inr h'
  · cases h'.1
  · exact (h h'.2.1 (SupEvent.dial.inj h'.1)).elim
  all_goals cases h'.1

theorem supStep_restored (hpc : s.pc = .restoring) : (s.supStep cfg .restored).pc = .ready := by
  have hstep : s.task.sup.step cfg.reconnect .restored = s.task.sup.goto .ready [] := by
    unfold Sup.step
    simp only [pc] at hpc
    rw [hpc]
  simp [pc, supStep, Supervised.step, hstep, Sup.goto]

/-- Outside the restore phase the event `restored` does nothing. -/
theorem supStep_restored_ne (hpc : s.pc ≠ .restoring) :
    (s.supStep cfg .restored).stretch = s.stretch ∨ (s.supStep cfg .restored).stretch = .idle := by
  rcases move_stretch (step_move cfg.reconnect s.task.sup .restored) with
    h | h | h | h | h | h | h | h | h
  · exact .inl h
  · exact .inr h
  all_goals first | exact absurd h.2.1 hpc | cases h.1

/-- What `advance` does to a connection. -/
inductive Advanced (cfg : Config) (s : Conn) : Conn → Prop
  | plain {task : Supervised}
      (h : task.sup.pc.stretch = s.stretch ∨ task.sup.pc.stretch = .idle) :
      Advanced cfg s { s with task := task }
  | negotiate {task : Supervised} (h' : task.sup.pc = .token) :
      Advanced cfg s { s with task := task, shared := { s.shared with capabilities := 0 } }
  | collect {task : Supervised} (h : s.pc = .opened) (h' : task.sup.pc = .restoring) :
      Advanced cfg s { s with
        task := task
        todo := s.registrations.entries.map fun e => e.2
        current := none }
  | restart {task : Supervised} (h : s.pc = .ready) (h' : task.sup.pc = .announcing) :
      Advanced cfg s { s with
        task := task
        shared := { s.shared with nextRequestId := 1 }
        epoch := s.epoch + 1 }
  | enter {task : Supervised} (h : s.pc = .entering) (h' : task.sup.pc = .session) :
      Advanced cfg s { s with
        task := task
        loop := .new s.shared.generation
        tombstones := fun _ => none
        sessions := s.sessions ++ [(s.serial, s.bumps)] }
  | lose {task : Supervised} (h' : task.sup.pc.stretch = .idle) :
      Advanced cfg s { s with
        task := task
        shared := { s.shared with generation := s.shared.generation + 1 }
        bumps := s.bumps + 1 }

theorem advance_advanced (cfg : Config) (s : Conn) : Advanced cfg s (s.advance cfg) := by
  have hm := move_stretch (step_move cfg.reconnect s.task.sup .advance)
  set task := s.task.step cfg.reconnect .advance with htask
  have hsup : task.sup = (s.task.sup.step cfg.reconnect .advance).1 := rfl
  rw [← hsup] at hm
  unfold advance
  simp only [supStep, pc]
  rw [← htask]
  split
  · rename_i h'
    exact .negotiate h'
  · rename_i h h'
    exact .collect h h'
  · rename_i h h'
    exact .restart h h'
  · rename_i h h'
    exact .enter h h'
  · rename_i h h'
    exact .lose (by rw [h']; rfl)
  · rename_i h1 h2 h3 h4 _
    refine .plain ?_
    rcases hm with h | h | ⟨-, h, h'⟩ | ⟨h, -⟩ | ⟨h, -⟩ | ⟨-, h, h'⟩ | ⟨h, -⟩ | ⟨-, h, h'⟩ |
      ⟨-, h, h'⟩
    · exact .inl h
    · exact .inr h
    · exact (h1 h h').elim
    · cases h
    · cases h
    · exact (h2 h h').elim
    · cases h
    · exact (h3 h h').elim
    · exact (h4 h h').elim

/-! ## Effects -/

/-- The `oneshot` an effect settles. -/
def answer? : Effect → Option (Ticket × Option (Result Bytes))
  | .respond t r => some (t, some r)
  | .release t => some (t, none)
  | .acknowledge t r => some (t, some (r.map fun _ => []))
  | _ => none

/-- What an effect leaves in the log. -/
def obs? (serial : ℕ) (origin : Origin) : Effect → Option Obs
  | .write _ => some (.wrote serial origin)
  | .publish messageType payload => some (.published serial messageType payload)
  | _ => none

/-- The effects of a turn, all at once. -/
theorem effects_eq (origin : Origin) (l : List Effect) (s : Conn) :
    s.effects origin l = { s with
      answers := s.answers ++ l.filterMap answer?
      unanswered := s.unanswered ++ (l.filterMap Effect.frame?).map (sent origin)
      log := s.log ++ l.filterMap (obs? s.serial origin) } := by
  induction l generalizing s with
  | nil => simp [effects]
  | cons e l ih =>
    have hstep : s.effects origin (e :: l) = (s.effect origin e).effects origin l := rfl
    rw [hstep, ih]
    cases e <;> simp [effect, wrote, answer?, obs?, Effect.frame?, List.filterMap_cons]

/-- The task after a turn: it leaves the session if the turn says so. -/
def afterTurn (cfg : Config) (task : Supervised) : Option SessionResult → Supervised
  | some .disconnected => task.step cfg.reconnect .disconnected
  | _ => task

/-- **A turn as one update of the connection.** -/
theorem turn_eq (origin : Origin) (t : Turn) (s : Conn) :
    s.turn cfg origin t = { s with
      loop := t.loop
      answers := s.answers ++ t.effects.filterMap answer?
      unanswered := s.unanswered ++ (t.effects.filterMap Effect.frame?).map (sent origin)
      log := s.log ++ t.effects.filterMap (obs? s.serial origin)
      task := afterTurn cfg s.task t.result } := by
  simp only [turn, effects_eq]
  cases t.result with
  | none => rfl
  | some r => cases r <;> rfl

/-- A turn that ends in `Disconnected` ends the session. -/
theorem afterTurn_lost (cfg : Config) {task : Supervised} (h : task.sup.pc = .session) :
    (afterTurn cfg task (some .disconnected)).sup.pc = .lost := by
  obtain ⟨⟨pc, n, i, c⟩, st, acts⟩ := task
  cases h
  rfl

theorem afterTurn_disconnected (cfg : Config) {task : Supervised} (h : task.sup.pc = .session) :
    (afterTurn cfg task (some .disconnected)).sup.pc.stretch = .idle := by
  rw [afterTurn_lost cfg h]
  rfl

theorem afterTurn_stretch (cfg : Config) (task : Supervised) (r : Option SessionResult) :
    (afterTurn cfg task r).sup.pc.stretch = task.sup.pc.stretch ∨
      (afterTurn cfg task r).sup.pc.stretch = .idle := by
  cases r with
  | none => exact .inl rfl
  | some r =>
    cases r with
    | closed => exact .inl rfl
    | disconnected =>
      rcases move_stretch (step_move cfg.reconnect task.sup .disconnected) with
        h | h | h | h | h | h | h | h | h
      · exact .inl h
      · exact .inr h
      all_goals exact absurd h.1 (by simp)

/-! ## The task is a supervisor -/

/-- In the event `e` the task makes some steps of the supervisor, which runs on its
own only in `advance`. -/
def Supervises (cfg : Config) (e : Event) (task task' : Supervised) : Prop :=
  ∃ es, task' = run (Supervised.step cfg.reconnect) task es ∧
    (SupEvent.advance ∈ es → e = .advance)

theorem Supervises.refl {e : Event} {task : Supervised} : Supervises cfg e task task :=
  ⟨[], rfl, by simp⟩

theorem Supervises.next {e : Event} {e' : SupEvent} {task task' : Supervised}
    (h : Supervises cfg e task task') (hne : e' ≠ .advance) :
    Supervises cfg e task (task'.step cfg.reconnect e') := by
  obtain ⟨es, hes, hno⟩ := h
  refine ⟨es ++ [e'], ?_, fun hin => ?_⟩
  · rw [run_append, ← hes]
    rfl
  · rcases List.mem_append.1 hin with hin | hin
    · exact hno hin
    · exact absurd (List.mem_singleton.1 hin).symm hne

theorem Supervises.supStep {e : Event} {e' : SupEvent} {task : Supervised} {s : Conn}
    (h : Supervises cfg e task s.task) (hne : e' ≠ .advance) :
    Supervises cfg e task (s.supStep cfg e').task := h.next hne

/-- A turn ends the session, or the task stays where it is. -/
theorem Supervises.turn {e : Event} {task : Supervised} {s : Conn} (hs : s.task = task)
    (origin : Origin) (t : Turn) : Supervises cfg e task (s.turn cfg origin t).task := by
  rw [turn_eq, ← hs]
  unfold afterTurn
  split
  · exact Supervises.refl.next (by simp)
  · exact .refl

theorem supervises_step (cfg : Config) (s : Conn) (e : Event) :
    Supervises cfg e s.task (s.step cfg e).task := by
  -- an event with a step of the supervisor of its own
  have hone : ∀ e' : SupEvent, e' ≠ .advance →
      Supervises cfg e s.task (s.task.step cfg.reconnect e') := fun e' hne => Supervises.refl.next hne
  cases e with
  | advance =>
    refine ⟨[.advance], ?_, fun _ => rfl⟩
    simp only [step, advance]
    split <;> rfl
  | command written =>
    simp only [step, command]
    split
    · split
      · exact Supervises.supStep (.turn (by rfl) _ _) (by simp)
      · exact Supervises.supStep (.turn (by rfl) _ _) (by simp)
      · exact .turn (by rfl) _ _
      · exact .turn (by rfl) _ _
    · exact .refl
  | cancel =>
    simp only [step, cancel]
    split
    · exact .turn (by rfl) _ _
    · exact .refl
  | inbound frame answers written =>
    simp only [step, inbound]
    split
    · exact .turn (by rfl) _ _
    · exact .refl
  | readError =>
    simp only [step, readError]
    split
    · exact .turn (by rfl) _ _
    · exact .refl
  | hangup =>
    simp only [step, hangup]
    split
    · -- the loop returns `Closed`, and the task finds its channel closed
      exact Supervises.supStep (.supStep (.turn (by rfl) _ _) (by simp)) (by simp)
    · exact hone .hangup (by simp)
    · exact .refl
  | allocate kind messageType payload =>
    simp only [step, allocate]
    split <;> exact .refl
  | stamp t | enqueue t | resume t | abandon t | connect | close | restoreNext key written
  | restoreRead frame answers | restoreFail =>
    simp only [step, stamp, enqueue, resume, abandon, dropGuard, push, restoreNext, restoreRead,
      restoreFail]
    repeat' split
    all_goals exact .refl
  | requestClose =>
    simp only [step, requestClose]
    split
    · exact .refl
    · exact hone .requestClose (by simp)
  | register messageType payload wireId decoder => exact .refl
  | deactivate key => exact .refl
  | receive =>
    simp only [step, receive]
    split
    · split
      · exact hone (.connect _) (by simp)
      · exact hone (.close _) (by simp)
      · exact .refl
      · exact .refl
    · exact .refl
  | token result => exact hone (.token result) (by simp)
  | dial result =>
    simp only [step, dial]
    split <;> exact hone (.dial _) (by simp)
  | auth answer =>
    simp only [step, auth]
    split
    · split <;> exact hone (.auth _) (by simp)
    · exact .refl
  | restored =>
    simp only [step, restored]
    split
    · exact hone .restored (by simp)
    · exact .refl
  | wake => exact hone .wake (by simp)

/-- **The supervisor task of a connection is a run of the supervisor.** -/
theorem task_run (cfg : Config) (es : List Event) :
    ∃ es', (run (Conn.step cfg) (.new cfg) es).task = run (Supervised.step cfg.reconnect) .new es' :=
  run_inv (I := fun s : Conn => ∃ es', s.task = run (Supervised.step cfg.reconnect) .new es')
    (fun s e ⟨es', h⟩ => by
      obtain ⟨es, hstep, -⟩ := supervises_step cfg s e
      exact ⟨es' ++ es, by rw [hstep, h, run_append]⟩)
    ⟨[], rfl⟩ es

end Conn

end Fitz

import Fitz.Proof.Callers

/-!
# What a step adds to the log

`log_step`: the log only grows, and each new entry is explained by the step that
wrote it. A caller is handed a payload by an inbound frame, loses its sender to a
tombstone or to a cancellation, and a frame of a call is written when the session
loop serves its command.
-/

namespace Fitz

open Machine

/-- The generation a command was stamped with. -/
def Command.generation? : Command → Option UInt64
  | .request _ generation _ _ _ _ | .send _ generation _ _ _ => some generation
  | _ => none

namespace Conn

variable {cfg : Config} {s : Conn}

/-- The session loop takes the command `c`. -/
def Serves (s : Conn) (e : Event) (c : Command) : Prop :=
  s.pc = .session ∧ (∃ written, e = .command written) ∧ ∃ cs, s.commands = c :: cs

/-- The step that accounts for an entry. -/
def Explained (s : Conn) (e : Event) : Obs → Prop
  | .delivered serial t payload frame source =>
    ∃ answers written, e = .inbound frame answers written ∧ s.pc = .session ∧ serial = s.serial ∧
      source = s.source answers ∧
      Effect.respond t (.ok payload) ∈ (s.loop.onFrame s.shared frame written).2.effects
  | .dropped t cause =>
    (∃ c, Serves s e c ∧ .dropped t cause ∈ s.buried c) ∨
    (∃ id c rest, e = .cancel ∧ s.pc = .session ∧ s.cancellations = (id, c) :: rest ∧
      cause = some c ∧ Effect.release t ∈ (s.loop.onCancel id).effects)
  | .wrote serial origin =>
    serial = s.serial ∧ ((∃ key, origin = .restore key) ∨
      ∃ c t, Serves s e c ∧ c.ticket? = some t ∧ origin.ticket? = some t ∧
        c.generation? = some s.loop.sessionGeneration)
  | .published serial _ _ => serial = s.serial
  | .received serial source frame =>
    serial = s.serial ∧ ∃ answers, source = s.source answers ∧
      ((∃ written, e = .inbound frame answers written ∧ s.pc = .session) ∨
        e = .restoreRead frame answers ∧ s.pc = .restoring)

/-- The log after a step: what was there, and entries the step explains. -/
def Grows (s : Conn) (e : Event) (log : List Obs) : Prop :=
  ∃ new, log = s.log ++ new ∧ ∀ o ∈ new, Explained s e o

theorem Grows.refl {e : Event} : Grows s e s.log := ⟨[], by simp, by simp⟩

/-- Effects that write nothing only publish. -/
theorem obs_of_silent {e : Event} {effects : List Effect} {origin : Origin}
    (hw : effects.filterMap Effect.frame? = []) :
    ∀ o ∈ effects.filterMap (obs? s.serial origin), Explained s e o := by
  intro o ho
  obtain ⟨x, hx, hobs⟩ := List.mem_filterMap.1 ho
  cases x with
  | write frame =>
    have : frame ∈ effects.filterMap Effect.frame? := List.mem_filterMap.2 ⟨_, hx, rfl⟩
    rw [hw] at this
    cases this
  | publish messageType payload =>
    cases hobs
    rfl
  | respond | release | acknowledge => cases hobs

/-- Effects of a served command. -/
theorem obs_of_served {e : Event} {effects : List Effect} {origin : Origin} {c : Command}
    {t : Ticket} (hs : Serves s e c) (hc : c.ticket? = some t) (ho : origin.ticket? = some t)
    (hg : c.generation? = some s.loop.sessionGeneration) :
    ∀ o ∈ effects.filterMap (obs? s.serial origin), Explained s e o := by
  intro o hmem
  obtain ⟨x, hx, hobs⟩ := List.mem_filterMap.1 hmem
  cases x with
  | write frame =>
    cases hobs
    exact ⟨rfl, .inr ⟨c, t, hs, hc, ho, hg⟩⟩
  | publish messageType payload =>
    cases hobs
    rfl
  | respond | release | acknowledge => cases hobs

/-- A command that writes a frame was stamped with the session's generation. -/
theorem onCommand_generation {sh : Shared} {l : Loop} (hcorr : supervisorCorrelationEnabled sh = true)
    {c : Command} {written : Result Unit} {frame : Bytes}
    (hw : (l.onCommand sh c written).effects.filterMap Effect.frame? = [frame]) :
    c.generation? = some l.sessionGeneration := by
  cases c with
  | request id generation messageType flags payload t =>
    have hreq := Loop.onRequest_requested (l := l) hcorr id generation messageType flags payload t
      written
    simp only [Loop.onCommand] at hw
    generalize l.onRequest sh id generation messageType flags payload t written = turn at hreq hw
    cases hreq with
    | stale => cases hw
    | refused h hw' => rw [hw'] at hw; cases hw
    | written h | failed h => exact congrArg some h
  | send id generation messageType payload t =>
    obtain ⟨effects, heq, hw'⟩ := Loop.onSend_sent sh l id generation messageType
      payload t written
    simp only [Loop.onCommand, heq, Loop.next] at hw
    rcases hw' with hw' | ⟨frame, h, -, -⟩
    · rw [hw'] at hw; cases hw
    · exact congrArg some h
  | connect t => cases hw
  | close t =>
    simp only [Loop.onCommand, Loop.finish, List.filterMap_append, Loop.frame?_failAll] at hw
    cases hw

theorem buried_explained {e : Event} {c : Command} (hs : Serves s e c) :
    ∀ o ∈ s.buried c, Explained s e o := by
  intro o ho
  have ho' := ho
  unfold buried at ho
  split at ho
  · split at ho
    · rw [List.mem_singleton.1 ho] at ho' ⊢
      exact .inl ⟨_, hs, ho'⟩
    · cases ho
  · cases ho

theorem log_command (hn : s.negotiated) (written : Result Unit) :
    Grows s (.command written) (s.command cfg written).log := by
  unfold command
  split
  · rename_i c cs hpc hcs
    obtain ⟨-, hcorr, -⟩ := (negotiated_iff hpc).1 hn
    have hs : Serves s (.command written) c := ⟨hpc, ⟨written, rfl⟩, cs, hcs⟩
    have hframes := onCommand_frames (l := s.loop) hcorr c written
    -- a frame of the command is explained by its call and the session that takes it
    have hobs : ∀ origin : Origin, origin.ticket? = c.ticket? → ∀ o ∈
        (s.loop.onCommand s.shared c written).effects.filterMap (obs? s.serial origin),
        Explained s (.command written) o := by
      intro origin ho
      rcases hframes with hw | ⟨hsome, frame, hw⟩
      · exact obs_of_silent hw
      · obtain ⟨t, ht⟩ := Option.isSome_iff_exists.1 hsome
        exact obs_of_served hs ht (ho.trans ht) (onCommand_generation hcorr hw)
    have hnew : ∀ origin : Origin, origin.ticket? = c.ticket? → ∀ o ∈ s.buried c ++
        (s.loop.onCommand s.shared c written).effects.filterMap (obs? s.serial origin),
        Explained s (.command written) o := by
      intro origin ho o hmem
      rcases List.mem_append.1 hmem with hmem | hmem
      · exact buried_explained hs o hmem
      · exact hobs origin ho o hmem
    simp only [turn_eq]
    split
    · exact ⟨_, List.append_assoc .., hnew .queued rfl⟩
    · exact ⟨_, List.append_assoc .., hnew .queued rfl⟩
    · exact ⟨_, List.append_assoc .., hnew (.request _) rfl⟩
    · exact ⟨_, List.append_assoc .., hnew (.send _) rfl⟩
  · exact .refl

theorem log_cancel (hn : s.negotiated) : Grows s .cancel (s.cancel cfg).log := by
  unfold cancel
  split
  · rename_i id cause rest hpc hcan
    obtain ⟨-, -, hl⟩ := (negotiated_iff hpc).1 hn
    simp only [turn_eq]
    refine ⟨_, List.append_assoc .., fun o ho => ?_⟩
    rcases List.mem_append.1 ho with ho | ho
    · obtain ⟨x, hx, hobs⟩ := List.mem_filterMap.1 ho
      cases x with
      | release t =>
        cases hobs
        exact .inr ⟨id, cause, rest, rfl, hpc, hcan, rfl, hx⟩
      | respond | acknowledge | write | publish => cases hobs
    · exact obs_of_silent (onCancel_silent hl id) o ho
  · exact .refl

theorem log_inbound (hn : s.negotiated) (frame : Bytes) (answers : Option ℕ) (written : Result Unit) :
    Grows s (.inbound frame answers written) (s.inbound cfg frame answers written).log := by
  unfold inbound
  split
  · rename_i hpc
    obtain ⟨hcap, -, hl⟩ := (negotiated_iff hpc).1 hn
    simp only [turn_eq, read]
    refine ⟨_, (List.append_assoc ..).trans ((List.append_assoc ..).trans rfl), fun o ho => ?_⟩
    rcases List.mem_append.1 ho with ho | ho
    · rw [List.mem_singleton.1 ho]
      exact ⟨rfl, answers, rfl, .inl ⟨written, rfl, hpc⟩⟩
    · rcases List.mem_append.1 ho with ho | ho
      · -- a delivery is that of an effect of this frame
        obtain ⟨x, hx, hobs⟩ := List.mem_filterMap.1 ho
        split at hobs
        · cases hobs
          exact ⟨answers, written, rfl, hpc, rfl, rfl, hx⟩
        · cases hobs
      · exact obs_of_silent (onFrame_silent hl hcap frame written) o ho
  · exact .refl

theorem log_restore (s : Conn) :
    (∀ key written, Grows s (.restoreNext key written) (s.restoreNext key written).log) ∧
      ∀ frame answers, Grows s (.restoreRead frame answers) (s.restoreRead frame answers).log := by
  constructor
  · intro key written
    -- a replay is logged as written, whatever the write returns
    have hwrote : Grows s (.restoreNext key written) (s.log ++ [.wrote s.serial (.restore key)]) :=
      ⟨_, rfl, fun o ho => by
        rw [List.mem_singleton.1 ho]
        exact ⟨rfl, .inl ⟨key, rfl⟩⟩⟩
    unfold restoreNext
    repeat' split
    all_goals first | exact hwrote | exact .refl
  · intro frame answers
    simp only [restoreRead]
    split
    · rename_i hpc _
      -- the frame read is logged; one of another type is published as well
      have hread : Explained s (.restoreRead frame answers)
          (.received s.serial (s.source answers) frame) := ⟨rfl, answers, rfl, .inr ⟨rfl, hpc⟩⟩
      have hone : Grows s (.restoreRead frame answers) (s.read frame answers).log :=
        ⟨_, rfl, fun o ho => by rw [List.mem_singleton.1 ho]; exact hread⟩
      split
      · exact hone
      · split
        · split <;> exact hone
        · refine ⟨_, List.append_assoc .., fun o ho => ?_⟩
          rcases List.mem_append.1 ho with ho | ho
          · rw [List.mem_singleton.1 ho]
            exact hread
          · rw [List.mem_singleton.1 ho]
            rfl
    · exact .refl

/-- **The log grows by entries the step explains.** -/
theorem log_step (cfg : Config) (s : Conn) (e : Event) (hn : s.negotiated) :
    Grows s e (s.step cfg e).log := by
  cases e with
  | command written => exact log_command hn written
  | cancel => exact log_cancel hn
  | inbound frame answers written => exact log_inbound hn frame answers written
  | restoreNext key written => exact (log_restore s).1 key written
  | restoreRead frame answers => exact (log_restore s).2 frame answers
  | readError | hangup =>
    simp only [step, readError, hangup, turn_eq]
    split
    · refine ⟨_, rfl, obs_of_silent ?_⟩
      simp only [Loop.onReadError, Loop.onHangup, Loop.finish, List.nil_append, Loop.frame?_failAll]
    all_goals exact .refl
  | advance =>
    have ha := advance_advanced cfg s
    simp only [step]
    generalize s.advance cfg = s' at ha
    cases ha <;> exact .refl
  | allocate kind messageType payload =>
    simp only [step, allocate]
    split <;> exact .refl
  | stamp t | enqueue t | resume t | abandon t | receive | dial result | restored | requestClose
  | restoreFail | auth answer | connect | close =>
    simp only [step, stamp, enqueue, resume, abandon, dropGuard, receive, dropCommands, dial,
      restored, requestClose, restoreFail, auth, push]
    repeat' split
    all_goals exact .refl
  | register | deactivate | token | wake => exact .refl

/-- The log of a step, without what explains it. -/
theorem mem_log_step (hn : s.negotiated) {e : Event} {o : Obs} (ho : o ∈ s.log) :
    o ∈ (s.step cfg e).log := by
  obtain ⟨new, hnew, -⟩ := log_step cfg s e hn
  rw [hnew]
  exact List.mem_append_left _ ho

end Conn

/-! ## Stretches of a run -/

/-- A HELLO with the limit `n`. -/
def helloFrame (n : UInt32) : Bytes :=
  ((Wire3.encode (putU16 3 ++ putU32 0 ++ putU32 1048576 ++ putU32 n ++ putU64 1) [(1, [0, 0])]).bind
    fun payload => tryEncodeFrame MessageType.hello extensionsPresent 0 payload).toOption.getD []

/-- The final answer to a frame. -/
def replyFrame (messageType : UInt16) (correlationId : UInt64) (payload : Bytes) : Bytes :=
  (tryEncodeFrame messageType responseFinal correlationId payload).toOption.getD []

/-- From the top of the loop to the restore phase. -/
def dialRun (n : UInt32) : List Event :=
  [.advance, .token (.ok ()), .dial (.ok ()), .auth (.ok (helloFrame n)), .advance]

/-- From the end of the restore phase into the session loop. -/
def enterRun : List Event := [.restored, .advance, .advance, .advance]

/-- A first connection with nothing to restore. -/
def firstSession (n : UInt32) : List Event :=
  [.connect, .receive, .advance] ++ dialRun n ++ enterRun

/-- From the loss of a session into the restore phase of the next. -/
def reopenRun (n : UInt32) : List Event := [.readError, .advance, .advance, .wake] ++ dialRun n

/-- A call from its id to the channel. -/
def requestRun (messageType : UInt16) (t : Ticket) : List Event :=
  [.allocate (.request 0) messageType [], .stamp t, .enqueue t]

end Fitz
